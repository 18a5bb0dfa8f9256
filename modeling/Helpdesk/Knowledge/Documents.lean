/-
  File:      Helpdesk/Knowledge/Documents.lean
  Subject:   Approval, publication and retirement of documents
             (apps/api/app/knowledge/document_service.py and document_repository.py).

  Each definition is one command with a new idempotency key; `none` is a command that
  is refused.
-/
import Helpdesk.Knowledge.Ingestion

namespace Helpdesk.Knowledge

open Helpdesk.Python

/-- `KnowledgeDocumentRepository.get`: documents of the tenant's own. -/
def Store.document (store : Store) (tenantId documentId : Uuid) : Option Document :=
  store.documents.find? fun d => d.documentId = documentId && d.tenantId = some tenantId

/-- `UPDATE kb.document ... WHERE document_id=:document_id`. -/
def Store.updateDocument (store : Store) (documentId : Uuid) (change : Document → Document) : Store :=
  { store with
    documents := store.documents.map fun d => if d.documentId = documentId then change d else d }

/-! ## 1. `approve` -/

/-- `KnowledgeDocumentService.approve`; the decision is `APPROVED` or `REJECTED`. -/
def approveDocument (actor : Actor) (documentId : Uuid) (approved : Bool) (expectedVersion : Nat)
    (store : Store) : Option Store := do
  let document ← store.document actor.tenantId documentId
  let source ← store.source actor.tenantId document.sourceId
  if source.ownedBy actor then none
  else if document.rowVersion ≠ expectedVersion ∨ document.approvalStatus = .retired then none
  else
    return store.updateDocument documentId fun d =>
      { d with
        approvalStatus := if approved then .approved else .rejected
        rowVersion := d.rowVersion + 1 }

/-! ## 2. `publish` -/

/-- `lineage_evidence`: the chunks of the processing version, how many of them have an
    embedding, and whether all of them carry what the document does. -/
def lineageEvidence (store : Store) (document : Document) (processingId : Uuid) :
    Nat × Nat × Bool :=
  let chunks := store.chunks.filter fun c => c.processingVersionId = processingId
  let embedded := chunks.filter fun c => store.embeddings.any fun e => e.chunkId = c.chunkId
  let valid := chunks ≠ [] && chunks.all fun c =>
    c.documentId = document.documentId && c.sourceId = document.sourceId &&
      c.audienceCode = document.audienceCode &&
      c.securityClassification = document.securityClassification
  (chunks.length, embedded.length, valid)

/-- A version that may become the current one. -/
def DocumentVersion.publishable (v : DocumentVersion) : Bool :=
  v.extractionStatus = .completed &&
    (v.validationStatus = .passed || v.validationStatus = .warning)

/-- `UPDATE kb.document_version SET current_version_flag=false ... WHERE
    document_version_id<>:version_id`. -/
def supersededVersion (documentId versionId : Uuid) (v : DocumentVersion) : DocumentVersion :=
  if v.documentId = documentId && v.documentVersionId ≠ versionId then
    { v with currentVersionFlag := false }
  else v

/-- The versions of a document once one of them is published. -/
def publishedVersion (documentId versionId processingId : Uuid) (v : DocumentVersion) :
    DocumentVersion :=
  if v.documentId = documentId && v.documentVersionId = versionId && v.publishable then
    { v with currentVersionFlag := true, publishedProcessingVersionId := some processingId }
  else supersededVersion documentId versionId v

/-- The item of a published version. -/
def publishedItem (versionId tenantId : Uuid) (item : RunItem) : RunItem :=
  if item.documentVersionId = some versionId && item.tenantId = tenantId then
    { item with
      itemStatus := .published
      pipelineStage := .complete
      lockedAt := none
      lockedBy := none
      rowVersion := item.rowVersion + 1 }
  else item

/-- The statements of `KnowledgeDocumentRepository.publish` on a version that may be
    published. -/
def publishVersion (tenantId : Uuid) (document : Document) (versionId processingId : Uuid)
    (store : Store) : Store :=
  let store := store.updateDocument document.documentId fun d => { d with rowVersion := d.rowVersion + 1 }
  { store with
    versions := store.versions.map (publishedVersion document.documentId versionId processingId)
    items := store.items.map (publishedItem versionId tenantId) }

/-- A processing version that may be published. -/
def ProcessingVersion.publishable (p : ProcessingVersion) : Bool :=
  p.processingStatus = .completed && (p.validationStatus = .passed || p.validationStatus = .warning) &&
    1 ≤ p.chunkCount.getD 0 && p.embeddedChunkCount.getD 0 = p.chunkCount.getD 0

/-- `KnowledgeDocumentService.publish`. Of a version that may not be published, the
    service only notices whether it is the current one already. -/
def publishDocument (oracleEnabled : Bool) (now : Instant) (actor : Actor) (documentId : Uuid)
    (processingId : Uuid) (expectedVersion : Nat) (store : Store) : Option Store := do
  let document ← store.document actor.tenantId documentId
  if document.rowVersion ≠ expectedVersion ∨ document.approvalStatus ≠ .approved ∨
      document.activeFlag = false then none
  else
    let candidate ← store.processings.find? fun p =>
      p.documentId = documentId && p.processingVersionId = processingId
    let source ← store.source actor.tenantId document.sourceId
    let authorization := store.effectiveAuthorization now actor.tenantId source
    let reasons := acquisitionPermissionReasons oracleEnabled source authorization
      (source.acquisitionMethod ≠ .manualUpload)
    let (chunks, embeddings, valid) := lineageEvidence store document processingId
    let count := candidate.chunkCount.getD 0
    if !candidate.publishable ∨ reasons ≠ [] ∨ !valid ∨ chunks ≠ count ∨ embeddings ≠ count then
      none
    else
      let version ← store.versions.find? fun v =>
        v.documentId = documentId && v.documentVersionId = candidate.documentVersionId
      if version.publishable then
        return publishVersion actor.tenantId document version.documentVersionId processingId store
      else if version.currentVersionFlag then
        return { store with
          versions := store.versions.map (supersededVersion documentId version.documentVersionId) }
      else none

/-! ## 3. `retire` -/

/-- `KnowledgeDocumentService.retire`. -/
def retireDocument (actor : Actor) (documentId : Uuid) (expectedVersion : Nat) (store : Store) :
    Option Store := do
  let document ← store.document actor.tenantId documentId
  let current ← store.versions.find? fun v => v.documentId = documentId && v.currentVersionFlag
  if document.rowVersion ≠ expectedVersion ∨ current.publishedProcessingVersionId = none then none
  else
    let store := store.updateDocument documentId fun d =>
      { d with approvalStatus := .retired, activeFlag := false, rowVersion := d.rowVersion + 1 }
    return store.updateVersion current.documentVersionId fun v =>
      { v with currentVersionFlag := false }

end Helpdesk.Knowledge
