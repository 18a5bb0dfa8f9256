/-
  File:      Helpdesk/Knowledge/Retrieval.lean
  Subject:   What retrieval serves to whom (apps/api/app/retrieval: the CTE of
             repository.py without filters, resolve_knowledge_principal of service.py;
             the roles of identity/authorization.py).

  The eligibility of a chunk is kept apart from its suppression: the first is read from
  documents, versions, sources and permissions, the second from the active corpus
  version alone.
-/
import Helpdesk.Knowledge.Governance

namespace Helpdesk.Knowledge

open Helpdesk.Python

/-! ## 1. Principals -/

inductive Persona where
  | employee | analyst
  deriving DecidableEq, Repr

/-- An authenticated caller. -/
structure Caller where
  tenantId : Uuid
  userId : Uuid
  roles : List String
  supportGroupIds : List Uuid
  businessUnitId : Option Uuid
  deriving DecidableEq, Repr

structure RetrievalPrincipal where
  tenantId : Uuid
  userId : Uuid
  roleCodes : List String
  supportGroupIds : List Uuid
  businessUnitId : Option Uuid
  audienceCodes : List Audience
  securityLevels : List Classification
  persona : Persona
  deriving DecidableEq, Repr

/-- The roles with `KNOWLEDGE_READ_EMPLOYEE` and with `KNOWLEDGE_READ_ANALYST`. -/
def Persona.roles : Persona → List String
  | .employee =>
      ["PLATFORM_ADMIN", "PROJECT_ADMIN", "SERVICE_OWNER", "SUPPORT_MANAGER", "AGENT", "CUSTOMER",
       "APPROVER", "KNOWLEDGE_AUTHOR", "KNOWLEDGE_APPROVER", "AI_ADMIN"]
  | .analyst => ["PLATFORM_ADMIN", "SUPPORT_MANAGER", "AGENT"]

/-- `resolve_knowledge_principal`. -/
def resolveKnowledgePrincipal (caller : Caller) (persona : Persona) : Option RetrievalPrincipal :=
  let admin := caller.roles.contains "PLATFORM_ADMIN"
  let audiences : List Audience := match persona with
    | .analyst => [.all, .employee, .analyst, .technicalSpecialist]
    | .employee => [.all, .employee]
  let levels : List Classification := match persona with
    | .analyst => [.publicAccess, .internalUse, .confidential]
    | .employee => [.publicAccess, .internalUse]
  if caller.roles.any persona.roles.contains then
    some
      { tenantId := caller.tenantId
        userId := caller.userId
        roleCodes := caller.roles
        supportGroupIds := caller.supportGroupIds
        businessUnitId := caller.businessUnitId
        audienceCodes := if admin then audiences ++ [.admin] else audiences
        securityLevels := if admin then levels ++ [.restricted] else levels
        persona }
  else none

/-- A row of `identity.support_group` or of `identity.business_unit`. -/
structure DirectoryEntry where
  tenantId : Uuid
  entryId : Uuid
  code : String
  deriving DecidableEq, Repr

/-- The tables of `identity` that permissions are resolved with. -/
structure Directory where
  supportGroups : List DirectoryEntry
  businessUnits : List DirectoryEntry
  deriving DecidableEq, Repr

/-! ## 2. Permissions of a document -/

/-- A code names a group or unit of the tenant by its identifier or by its code. -/
def named (entries : List DirectoryEntry) (tenantId id : Uuid) (code : String) : Bool :=
  code = uuidText id || entries.any fun e =>
    e.tenantId = tenantId && e.entryId = id && e.code = code

/-- A row of `kb.document_permission` lets the principal read. -/
def DocumentPermission.grants (directory : Directory) (principal : RetrievalPrincipal)
    (permission : DocumentPermission) : Bool :=
  match permission.principalType with
  | .user => permission.principalCode = uuidText principal.userId
  | .role => principal.roleCodes.contains permission.principalCode
  | .supportGroup => principal.supportGroupIds.any fun id =>
      named directory.supportGroups principal.tenantId id permission.principalCode
  | .businessUnit => principal.businessUnitId.any fun id =>
      named directory.businessUnits principal.tenantId id permission.principalCode
  | .department => false
  | .allEmployees => true
  | .allAnalysts => principal.persona = .analyst

/-- A document without permissions is open to its audience. -/
def Store.permits (store : Store) (directory : Directory) (principal : RetrievalPrincipal)
    (documentId : Uuid) : Bool :=
  let own := store.permissions.filter fun p => p.documentId = documentId
  own = [] || own.any (·.grants directory principal)

/-! ## 3. Eligibility -/

/-- The day a query runs on: `CURRENT_DATE`. -/
abbrev Day := Int

/-- The version that serves a document. -/
def DocumentVersion.servable (v : DocumentVersion) : Bool :=
  v.currentVersionFlag && (v.validationStatus = .passed || v.validationStatus = .warning) &&
    v.publishedProcessingVersionId.isSome

/-- The conditions on a document that do not depend on who asks. -/
def Document.servable (today : Day) (document : Document) : Bool :=
  document.activeFlag && document.approvalStatus = .approved &&
    !document.effectiveFrom.any (today < ·) && !document.effectiveTo.any (· < today) &&
    !document.nextReviewDate.any (· < today)

/-- The conditions on a source. -/
def Source.servable (source : Source) : Bool :=
  source.sourceStatus = .active && source.approvalStatus = .approved

/-- `eligible_documents`: the document is served to the principal with this version. -/
def Store.eligible (store : Store) (directory : Directory) (today : Day)
    (principal : RetrievalPrincipal) (document : Document) (version : DocumentVersion) : Bool :=
  version.documentId = document.documentId && version.servable && document.servable today &&
    (store.sources.any fun s => s.sourceId = document.sourceId && s.servable) &&
    visibleTo principal.tenantId document.tenantId &&
    principal.audienceCodes.contains document.audienceCode &&
    principal.securityLevels.contains document.securityClassification &&
    store.permits directory principal document.documentId

/-- `eligible_chunks`, but for the suppression. -/
def Store.serves (store : Store) (directory : Directory) (today : Day)
    (principal : RetrievalPrincipal) (chunk : ChunkRow) : Bool :=
  chunk.tenantId = principal.tenantId && store.documents.any fun document =>
    store.versions.any fun version =>
      store.eligible directory today principal document version &&
        chunk.documentVersionId = version.documentVersionId &&
        version.publishedProcessingVersionId = some chunk.processingVersionId

/-- The chunk is excluded by the active corpus version of the tenant. -/
def Store.excluded (store : Store) (tenantId chunkId : Uuid) : Bool :=
  store.suppressedChunks.any fun s => s.chunkId = chunkId &&
    store.corpusVersions.any fun v =>
      v.corpusVersionId = s.corpusVersionId && v.activeFlag && v.tenantId = tenantId

/-- `eligible_chunks`: the principal can retrieve the chunk. -/
def Store.retrievable (store : Store) (directory : Directory) (today : Day)
    (principal : RetrievalPrincipal) (chunk : ChunkRow) : Bool :=
  store.serves directory today principal chunk &&
    !store.excluded principal.tenantId chunk.chunkId

end Helpdesk.Knowledge
