/-
  File:      Helpdesk/Knowledge/PublicationCommands.lean
  Subject:   `approve`, `publish` and `retire` with their idempotency keys and the
             publication events (apps/api/app/knowledge/document_service.py and
             document_repository.py, claim_idempotency of ingestion/repository.py).

  A ledger is the knowledge base with the idempotency records and the publication
  events. A request is one transaction: an error rolls all of it back.

  * `perform_store`: on the knowledge base a request that succeeds is the command of
    `Documents.lean`;
  * `perform_sound`: keys of the tables, and the record behind every event, are kept;
  * `honest_of_fresh`: what a request does whose key the other operation of the
    tenant has not used;
  * `publications_honest`: the same along a run.
-/
import Helpdesk.Knowledge.Documents
import Helpdesk.Knowledge.Suppression
import Helpdesk.Lib.Runs

namespace Helpdesk.Knowledge

open Helpdesk.Python

/-! ## 1. Records and events -/

inductive DocumentOperation where
  | approval | publish | retire
  deriving DecidableEq, Repr

/-- A row of `integration.idempotency_record`. -/
structure IdempotencyRecord where
  tenantId : Uuid
  operationCode : DocumentOperation
  idempotencyKey : String
  principalId : Uuid
  requestHash : String
  completed : Bool
  resultResourceId : Option Uuid
  deriving DecidableEq, Repr

inductive PublicationAction where
  | published | retired
  deriving DecidableEq, Repr

/-- A row of `kb.document_publication_event`; the evidence by the reason in it. -/
structure PublicationEvent where
  tenantId : Uuid
  documentId : Uuid
  documentVersionId : Uuid
  processingVersionId : Uuid
  actionCode : PublicationAction
  actorUserId : Uuid
  previousVersionId : Option Uuid
  reason : String
  deduplicationKey : String
  deriving DecidableEq, Repr

structure Ledger where
  store : Store
  records : List IdempotencyRecord
  events : List PublicationEvent

/-- What a request can raise. -/
inductive DocumentError where
  | authorization (message : String)
  | permissionDenied (reasons : List PermissionReason)
  | notFound (message : String)
  | conflict (message : String)
  | concurrency (message : String)
  /-- UNIQUE (tenant_id,deduplication_key) -/
  | eventKeyTaken
  /-- `deduplication_key varchar(250)` -/
  | eventKeyTooLong
  /-- `CAST(:evidence AS jsonb)` -/
  | evidenceNotStorable
  deriving DecidableEq, Repr

/-- The errors the service raises itself; the others come from the database. -/
def DocumentError.raisedByService : DocumentError → Bool
  | eventKeyTaken | eventKeyTooLong | evidenceNotStorable => false
  | _ => true

def ensure (c : Bool) (e : DocumentError) : Except DocumentError Unit :=
  if c then .ok () else .error e

/-- The row of a query, or an error. -/
def required {α : Type} (row : Option α) (e : DocumentError) : Except DocumentError α :=
  row.elim (.error e) .ok

/-! ## 2. Requests -/

inductive DocumentCommand where
  | approve (approved : Bool) (expectedVersion : Nat) (reason : String)
  | publish (processingVersionId : Uuid) (expectedDocumentVersion : Nat) (reason : String)
  | retire (expectedVersion : Nat) (reason : String)
  deriving DecidableEq, Repr

def DocumentCommand.operation : DocumentCommand → DocumentOperation
  | approve _ _ _ => .approval
  | publish _ _ _ => .publish
  | retire _ _ => .retire

structure DocumentRequest where
  now : Instant
  actor : Actor
  documentId : Uuid
  command : DocumentCommand
  idempotencyKey : String

/-- What the service is built with; `requestHash` is `_hash` of a command on a
    document. -/
structure DocumentService where
  isAllowed : Actor → DocumentOperation → Bool
  oracleEnabled : Bool
  requestHash : Uuid → DocumentCommand → String

variable (service : DocumentService)

/-- `jsonb` holds no NUL character. -/
def storable (reason : String) : Bool := !reason.toList.contains '\x00'

/-- The rows with one key. -/
def IdempotencyRecord.keyed (r : IdempotencyRecord) (tenantId : Uuid) (operation : DocumentOperation)
    (key : String) : Bool :=
  r.tenantId = tenantId && r.operationCode = operation && r.idempotencyKey = key

/-- `claim_idempotency`: the record of the key, a new one if there is none. -/
def claimIdempotency (tenantId userId : Uuid) (key requestHash : String)
    (operation : DocumentOperation) (ledger : Ledger) : IdempotencyRecord × Ledger :=
  match ledger.records.find? (·.keyed tenantId operation key) with
  | some record => (record, ledger)
  | none =>
      let record : IdempotencyRecord := ⟨tenantId, operation, key, userId, requestHash, false, none⟩
      (record, { ledger with records := ledger.records ++ [record] })

/-- `complete_idempotency` -/
def completeIdempotency (record : IdempotencyRecord) (documentId : Uuid) (ledger : Ledger) : Ledger :=
  { ledger with
    records := ledger.records.map fun r =>
      if r.keyed record.tenantId record.operationCode record.idempotencyKey then
        { r with completed := true, resultResourceId := some documentId }
      else r }

/-- The `INSERT` of `_publication_event`. -/
def insertEvent (event : PublicationEvent) (ledger : Ledger) : Except DocumentError Ledger := do
  ensure (storable event.reason) .evidenceNotStorable
  ensure (event.deduplicationKey.length ≤ 250) .eventKeyTooLong
  ensure (!ledger.events.any fun e =>
    e.tenantId = event.tenantId && e.deduplicationKey = event.deduplicationKey) .eventKeyTaken
  return { ledger with events := ledger.events ++ [event] }

/-- `audit` -/
def audit (reason : String) : Except DocumentError Unit := ensure (storable reason) .evidenceNotStorable

/-! ## 3. `approve` -/

def approve (actor : Actor) (document : Document) (approved : Bool) (expectedVersion : Nat)
    (reason : String) (ledger : Ledger) : Except DocumentError Ledger := do
  let source ← required (ledger.store.source actor.tenantId document.sourceId)
    (.conflict "Knowledge source is unavailable.")
  ensure (!source.ownedBy actor) (.authorization "A source owner cannot approve its document.")
  ensure (document.rowVersion = expectedVersion && document.approvalStatus ≠ .retired)
    (.concurrency "Knowledge document row version is stale.")
  audit reason
  return { ledger with
    store := ledger.store.updateDocument document.documentId fun d =>
      { d with
        approvalStatus := if approved then .approved else .rejected
        rowVersion := d.rowVersion + 1 } }

/-! ## 4. `publish` -/

/-- The checks of `publish` before its statements: the processing version to publish. -/
def publicationChecks (now : Instant) (actor : Actor) (document : Document) (processingId : Uuid)
    (expectedVersion : Nat) (store : Store) : Except DocumentError ProcessingVersion := do
  ensure (document.rowVersion = expectedVersion)
    (.concurrency "Knowledge document row version is stale.")
  ensure (document.approvalStatus = .approved && document.activeFlag)
    (.conflict "Only an approved active document may be published.")
  let candidate ← required (store.processings.find? fun p =>
      p.documentId = document.documentId && p.processingVersionId = processingId)
    (.notFound "Processing version was not found.")
  let count := candidate.chunkCount.getD 0
  ensure (candidate.processingStatus = .completed &&
      (candidate.validationStatus = .passed || candidate.validationStatus = .warning))
    (.conflict "Only a completed valid processing version may be published.")
  ensure (1 ≤ count && candidate.embeddedChunkCount.getD 0 = count)
    (.conflict "Publication requires complete chunks and embeddings.")
  let source ← required (store.source actor.tenantId document.sourceId)
    (.conflict "Knowledge source is unavailable.")
  let authorization := store.effectiveAuthorization now actor.tenantId source
  let reasons := acquisitionPermissionReasons service.oracleEnabled source authorization
    (source.acquisitionMethod ≠ .manualUpload)
  ensure (reasons = []) (.permissionDenied reasons)
  let lineage := lineageEvidence store document processingId
  ensure (lineage.2.2 && lineage.1 = count && lineage.2.1 = count)
    (.conflict "Chunk authorization lineage is incomplete.")
  return candidate

/-- The current version of a document. -/
def Store.currentVersion (store : Store) (documentId : Uuid) : Option DocumentVersion :=
  store.versions.find? fun v => v.documentId = documentId && v.currentVersionFlag

/-- `KnowledgeDocumentRepository.publish`: the previous version, and none as well when
    the requested one may not be published. -/
def publishStatements (actor : Actor) (document : Document) (versionId processingId : Uuid)
    (reason key : String) (ledger : Ledger) : Except DocumentError (Option Uuid × Ledger) :=
  let previous := (ledger.store.currentVersion document.documentId).map (·.documentVersionId)
  if ledger.store.versions.any fun v =>
      v.documentId = document.documentId && v.documentVersionId = versionId && v.publishable then do
    let store := publishVersion actor.tenantId document versionId processingId ledger.store
    let ledger ← insertEvent
      ⟨actor.tenantId, document.documentId, versionId, processingId, .published, actor.userId,
        previous, reason, key⟩ { ledger with store := store }
    return (previous, ledger)
  else
    .ok (none, { ledger with
      store := { ledger.store with
        versions := ledger.store.versions.map (supersededVersion document.documentId versionId) } })

def publish (now : Instant) (actor : Actor) (document : Document) (processingId : Uuid)
    (expectedVersion : Nat) (reason key : String) (ledger : Ledger) :
    Except DocumentError Ledger := do
  let candidate ←
    publicationChecks service now actor document processingId expectedVersion ledger.store
  let result ← publishStatements actor document candidate.documentVersionId processingId reason key
    ledger
  ensure (result.1.isSome || result.2.store.versions.any fun v =>
      v.documentId = document.documentId && v.documentVersionId = candidate.documentVersionId &&
        v.currentVersionFlag)
    (.conflict "Document publication failed.")
  audit reason
  return result.2

/-! ## 5. `retire` -/

def retire (actor : Actor) (document : Document) (expectedVersion : Nat) (reason key : String)
    (ledger : Ledger) : Except DocumentError Ledger := do
  ensure (document.rowVersion = expectedVersion)
    (.concurrency "Knowledge document row version is stale.")
  let refused := DocumentError.conflict "Only a published document may be retired."
  let current ← required (ledger.store.currentVersion document.documentId) refused
  let processingId ← required current.publishedProcessingVersionId refused
  let store := ledger.store.updateDocument document.documentId fun d =>
    { d with approvalStatus := .retired, activeFlag := false, rowVersion := d.rowVersion + 1 }
  let store := store.updateVersion current.documentVersionId fun v =>
    { v with currentVersionFlag := false }
  let ledger ← insertEvent
    ⟨actor.tenantId, document.documentId, current.documentVersionId, processingId, .retired,
      actor.userId, some current.documentVersionId, reason, key⟩ { ledger with store := store }
  audit reason
  return ledger

/-! ## 6. A request -/

/-- The part of a request between its claim and its completion. -/
def performNew (request : DocumentRequest) (document : Document) (ledger : Ledger) :
    Except DocumentError Ledger :=
  match request.command with
  | .approve approved expectedVersion reason =>
      approve request.actor document approved expectedVersion reason ledger
  | .publish processingId expectedVersion reason =>
      publish service request.now request.actor document processingId expectedVersion reason
        request.idempotencyKey ledger
  | .retire expectedVersion reason =>
      retire request.actor document expectedVersion reason request.idempotencyKey ledger

/-- A command of `KnowledgeDocumentService`: the ledger, and whether the response is a
    replay. -/
def perform (request : DocumentRequest) (ledger : Ledger) : Except DocumentError (Ledger × Bool) := do
  let operation := request.command.operation
  let hash := service.requestHash request.documentId request.command
  ensure (service.isAllowed request.actor operation) (.authorization "")
  let claimed := claimIdempotency request.actor.tenantId request.actor.userId request.idempotencyKey
    hash operation ledger
  ensure (claimed.1.principalId = request.actor.userId && claimed.1.requestHash = hash)
    (.conflict "Idempotency key was already used for another request.")
  let document ← required (ledger.store.document request.actor.tenantId request.documentId)
    (.notFound "Knowledge document was not found.")
  if claimed.1.completed then .ok (claimed.2, true)
  else do
    let done ← performNew service request document claimed.2
    return (completeIdempotency claimed.1 request.documentId done, false)

/-- The ledger after a request. -/
def afterRequest (ledger : Ledger) (request : DocumentRequest) : Ledger :=
  match perform service request ledger with
  | .ok (after, _) => after
  | .error _ => ledger

/-! ## 7. Checks -/

theorem ensure_eq_ok {c : Bool} {e : DocumentError} {u : Unit} : ensure c e = .ok u ↔ c = true := by
  cases c <;> simp [ensure]

theorem ensure_eq_error {c : Bool} {e e' : DocumentError} :
    ensure c e = .error e' ↔ c = false ∧ e = e' := by
  cases c <;> simp [ensure]

theorem required_eq_ok {α : Type} {row : Option α} {e : DocumentError} {a : α} :
    required row e = .ok a ↔ row = some a := by
  cases row <;> simp [required]

theorem required_eq_error {α : Type} {row : Option α} {e e' : DocumentError} :
    required row e = .error e' ↔ row = none ∧ e = e' := by
  cases row <;> simp [required]

variable {service} {ledger after : Ledger} {request : DocumentRequest} {document : Document}
  {actor : Actor}

theorem insertEvent_eq_ok {event : PublicationEvent} :
    insertEvent event ledger = .ok after ↔
      storable event.reason = true ∧ event.deduplicationKey.length ≤ 250 ∧
        (∀ e ∈ ledger.events, e.tenantId = event.tenantId →
          e.deduplicationKey ≠ event.deduplicationKey) ∧
        after = { ledger with events := ledger.events ++ [event] } := by
  simp only [insertEvent, Helpdesk.bind_eq_ok, ensure_eq_ok, decide_eq_true_eq, Bool.not_eq_true',
    List.any_eq_false, Bool.and_eq_true, not_and, Helpdesk.pure_eq_ok]
  constructor
  · rintro ⟨_, hreason, _, hlength, _, hfree, rfl⟩
    exact ⟨hreason, hlength, hfree, rfl⟩
  · rintro ⟨hreason, hlength, hfree, rfl⟩
    exact ⟨(), hreason, (), hlength, (), hfree, rfl⟩

/-- What stops an event from being stored. -/
def Blocked (event : PublicationEvent) (ledger : Ledger) : Prop :=
  storable event.reason = false ∨ 250 < event.deduplicationKey.length ∨
    ∃ e ∈ ledger.events, e.tenantId = event.tenantId ∧ e.deduplicationKey = event.deduplicationKey

theorem insertEvent_eq_error {event : PublicationEvent} {e : DocumentError}
    (h : insertEvent event ledger = .error e) : Blocked event ledger := by
  simp only [insertEvent, Helpdesk.bind_eq_error, ensure_eq_error, ensure_eq_ok] at h
  rcases h with ⟨hreason, -⟩ | ⟨_, _, ⟨hlength, -⟩ | ⟨_, _, ⟨hfree, -⟩ | ⟨_, _, hpure⟩⟩⟩
  · exact .inl hreason
  · exact .inr (.inl (by simpa using hlength))
  · refine .inr (.inr ?_)
    simpa only [Bool.not_eq_false', List.any_eq_true, Bool.and_eq_true, decide_eq_true_eq] using hfree
  · cases hpure

/-! ## 8. What the statements do -/

theorem Store.document_eq_some {store : Store} {tenantId documentId : Uuid}
    (h : store.document tenantId documentId = some document) :
    document ∈ store.documents ∧ document.documentId = documentId := by
  have hfound := List.find?_some h
  rw [Bool.and_eq_true, decide_eq_true_eq] at hfound
  exact ⟨List.mem_of_find?_eq_some h, hfound.1⟩

theorem Store.currentVersion_eq_some {store : Store} {documentId : Uuid} {v : DocumentVersion}
    (h : store.currentVersion documentId = some v) :
    v ∈ store.versions ∧ v.documentId = documentId ∧ v.currentVersionFlag = true := by
  have hfound := List.find?_some h
  rw [Bool.and_eq_true, decide_eq_true_eq] at hfound
  exact ⟨List.mem_of_find?_eq_some h, hfound⟩

section Versions

variable {documentId versionId processingId : Uuid} {v : DocumentVersion}

@[simp] theorem supersededVersion_documentId :
    (supersededVersion documentId versionId v).documentId = v.documentId := by
  unfold supersededVersion
  split <;> rfl

@[simp] theorem supersededVersion_documentVersionId :
    (supersededVersion documentId versionId v).documentVersionId = v.documentVersionId := by
  unfold supersededVersion
  split <;> rfl

@[simp] theorem publishedVersion_documentId :
    (publishedVersion documentId versionId processingId v).documentId = v.documentId := by
  unfold publishedVersion
  split
  · rfl
  · exact supersededVersion_documentId

@[simp] theorem publishedVersion_documentVersionId :
    (publishedVersion documentId versionId processingId v).documentVersionId =
      v.documentVersionId := by
  unfold publishedVersion
  split
  · rfl
  · exact supersededVersion_documentVersionId

/-- Of the document only the requested version may stay the current one; the versions of
    other documents are not touched. -/
theorem supersededVersion_current
    (h : (supersededVersion documentId versionId v).currentVersionFlag = true) :
    v.currentVersionFlag = true ∧ (v.documentId = documentId → v.documentVersionId = versionId) := by
  unfold supersededVersion at h
  split at h
  · cases h
  · rename_i hne
    refine ⟨h, fun hdocument => ?_⟩
    by_contra hversion
    exact hne (by simp [hdocument, hversion])

theorem publishedVersion_current
    (h : (publishedVersion documentId versionId processingId v).currentVersionFlag = true) :
    (v.documentId = documentId → v.documentVersionId = versionId) ∧
      (v.documentId ≠ documentId → v.currentVersionFlag = true) := by
  unfold publishedVersion at h
  split at h
  · rename_i hcond
    simp only [Bool.and_eq_true, decide_eq_true_eq] at hcond
    exact ⟨fun _ => hcond.1.2, fun hne => absurd hcond.1.1 hne⟩
  · exact ⟨(supersededVersion_current h).2, fun _ => (supersededVersion_current h).1⟩

variable (processingId) in
theorem publishedVersion_requested (hdocument : v.documentId = documentId)
    (hversion : v.documentVersionId = versionId) (hpublishable : v.publishable = true) :
    publishedVersion documentId versionId processingId v =
      { v with currentVersionFlag := true, publishedProcessingVersionId := some processingId } := by
  unfold publishedVersion
  rw [if_pos (by simp [hdocument, hversion, hpublishable])]

end Versions

section Spec

variable {now : Instant} {processingId : Uuid} {expectedVersion : Nat} {reason key : String}

/-- The publication event of a version. -/
def publishedEvent (actor : Actor) (document : Document) (versionId processingId : Uuid)
    (reason key : String) (store : Store) : PublicationEvent :=
  ⟨actor.tenantId, document.documentId, versionId, processingId, .published, actor.userId,
    (store.currentVersion document.documentId).map (·.documentVersionId), reason, key⟩

def retiredEvent (actor : Actor) (document : Document) (current : DocumentVersion)
    (processingId : Uuid) (reason key : String) : PublicationEvent :=
  ⟨actor.tenantId, document.documentId, current.documentVersionId, processingId, .retired,
    actor.userId, some current.documentVersionId, reason, key⟩

/-- A version of the document that `publish` may make the current one. -/
def Store.mayPublish (store : Store) (documentId versionId : Uuid) : Bool :=
  store.versions.any fun v =>
    v.documentId = documentId && v.documentVersionId = versionId && v.publishable

theorem publicationChecks_eq_ok {store : Store} {candidate : ProcessingVersion}
    (h : publicationChecks service now actor document processingId expectedVersion store =
      .ok candidate) :
    candidate ∈ store.processings ∧ candidate.documentId = document.documentId ∧
      candidate.processingVersionId = processingId := by
  simp only [publicationChecks, Helpdesk.bind_eq_ok, required_eq_ok, Helpdesk.pure_eq_ok] at h
  obtain ⟨_, -, _, -, found, hfound, _, -, _, -, _, -, _, -, _, -, rfl⟩ := h
  have hcond := List.find?_some hfound
  rw [Bool.and_eq_true, decide_eq_true_eq, decide_eq_true_eq] at hcond
  exact ⟨List.mem_of_find?_eq_some hfound, hcond⟩

/-- What a successful `publish` has done: the statements of a publication with its event,
    or nothing but the superseding when the current version may not be published. -/
theorem publish_eq_ok
    (h : publish service now actor document processingId expectedVersion reason key ledger =
      .ok after) :
    ∃ candidate, publicationChecks service now actor document processingId expectedVersion
        ledger.store = .ok candidate ∧
      ((ledger.store.mayPublish document.documentId candidate.documentVersionId = true ∧
          after = { ledger with
            store := publishVersion actor.tenantId document candidate.documentVersionId
              processingId ledger.store
            events := ledger.events ++ [publishedEvent actor document
              candidate.documentVersionId processingId reason key ledger.store] }) ∨
        (ledger.store.mayPublish document.documentId candidate.documentVersionId = false ∧
          after = { ledger with
            store := { ledger.store with
              versions := ledger.store.versions.map
                (supersededVersion document.documentId candidate.documentVersionId) } } ∧
          ∃ v ∈ after.store.versions, v.documentId = document.documentId ∧
            v.documentVersionId = candidate.documentVersionId ∧ v.currentVersionFlag = true)) := by
  simp only [publish, Helpdesk.bind_eq_ok, Helpdesk.pure_eq_ok, ensure_eq_ok] at h
  obtain ⟨candidate, hchecks, ⟨published, done⟩, hstatements, _, hpublished, _, -, rfl⟩ := h
  refine ⟨candidate, hchecks, ?_⟩
  unfold publishStatements at hstatements
  dsimp only at hstatements
  by_cases hmay : ledger.store.mayPublish document.documentId candidate.documentVersionId = true
  · unfold Store.mayPublish at hmay
    rw [if_pos hmay] at hstatements
    simp only [Helpdesk.bind_eq_ok, insertEvent_eq_ok, Helpdesk.pure_eq_ok, Prod.mk.injEq]
      at hstatements
    obtain ⟨_, ⟨-, -, -, rfl⟩, -, rfl⟩ := hstatements
    exact .inl ⟨hmay, rfl⟩
  · unfold Store.mayPublish at hmay
    rw [if_neg hmay] at hstatements
    obtain ⟨rfl, rfl⟩ := Prod.mk.inj (Except.ok.inj hstatements)
    refine .inr ⟨Bool.eq_false_iff.mpr hmay, rfl, ?_⟩
    simpa only [Option.isSome_none, Bool.false_or, List.any_eq_true, Bool.and_eq_true,
      decide_eq_true_eq, and_assoc] using hpublished

theorem retire_eq_ok
    (h : retire actor document expectedVersion reason key ledger = .ok after) :
    ∃ current processingId, document.rowVersion = expectedVersion ∧
      ledger.store.currentVersion document.documentId = some current ∧
      current.publishedProcessingVersionId = some processingId ∧
      after = { ledger with
        store := (ledger.store.updateDocument document.documentId fun d =>
          { d with approvalStatus := .retired, activeFlag := false,
                   rowVersion := d.rowVersion + 1 }).updateVersion current.documentVersionId
            fun v => { v with currentVersionFlag := false }
        events := ledger.events ++ [retiredEvent actor document current processingId reason key] } := by
  simp only [retire, Helpdesk.bind_eq_ok, Helpdesk.pure_eq_ok, ensure_eq_ok, required_eq_ok,
    insertEvent_eq_ok, decide_eq_true_eq] at h
  obtain ⟨_, hversion, current, hcurrent, processingId, hprocessing, done, ⟨-, -, -, rfl⟩, _, -,
    rfl⟩ := h
  exact ⟨current, processingId, hversion, hcurrent, hprocessing, rfl⟩

theorem approve_eq_ok {approved : Bool}
    (h : approve actor document approved expectedVersion reason ledger = .ok after) :
    ∃ source, ledger.store.source actor.tenantId document.sourceId = some source ∧
      source.ownedBy actor = false ∧ document.rowVersion = expectedVersion ∧
      document.approvalStatus ≠ .retired ∧
      after = { ledger with
        store := ledger.store.updateDocument document.documentId fun d =>
          { d with
            approvalStatus := if approved then .approved else .rejected
            rowVersion := d.rowVersion + 1 } } := by
  simp only [approve, Helpdesk.bind_eq_ok, Helpdesk.pure_eq_ok, ensure_eq_ok, required_eq_ok,
    Bool.not_eq_true', Bool.and_eq_true, decide_eq_true_eq] at h
  obtain ⟨source, hsource, _, howner, _, ⟨hversion, hretired⟩, _, -, rfl⟩ := h
  exact ⟨source, hsource, howner, hversion, by simpa using hretired, rfl⟩

/-- What the database can object to in a `publish`. -/
theorem publish_eq_error {e : DocumentError}
    (h : publish service now actor document processingId expectedVersion reason key ledger =
      .error e) :
    e.raisedByService = true ∨ storable reason = false ∨ 250 < key.length ∨
      ∃ event ∈ ledger.events, event.tenantId = actor.tenantId ∧ event.deduplicationKey = key := by
  have hchecks : ∀ {e}, publicationChecks service now actor document processingId expectedVersion
      ledger.store = .error e → e.raisedByService = true := by
    intro e he
    simp only [publicationChecks, Helpdesk.bind_eq_error, ensure_eq_error, required_eq_error] at he
    rcases he with ⟨-, rfl⟩ | ⟨_, _, ⟨-, rfl⟩ | ⟨_, _, ⟨-, rfl⟩ | ⟨_, _, ⟨-, rfl⟩ | ⟨_, _, ⟨-, rfl⟩ |
      ⟨_, _, ⟨-, rfl⟩ | ⟨_, _, ⟨-, rfl⟩ | ⟨_, _, ⟨-, rfl⟩ | ⟨_, _, hpure⟩⟩⟩⟩⟩⟩⟩⟩
    all_goals first | rfl | cases hpure
  simp only [publish, Helpdesk.bind_eq_error, ensure_eq_error] at h
  rcases h with he | ⟨candidate, -, hstatements | ⟨result, -, ⟨-, rfl⟩ | ⟨_, -, haudit | ⟨_, -, hpure⟩⟩⟩⟩
  · exact .inl (hchecks he)
  · unfold publishStatements at hstatements
    dsimp only at hstatements
    split at hstatements
    · simp only [Helpdesk.bind_eq_error] at hstatements
      rcases hstatements with hinsert | ⟨_, -, hpure⟩
      · exact .inr (insertEvent_eq_error hinsert)
      · cases hpure
    · cases hstatements
  · exact .inl rfl
  · exact .inr (.inl (ensure_eq_error.mp haudit).1)
  · cases hpure

theorem retire_eq_error {e : DocumentError}
    (h : retire actor document expectedVersion reason key ledger = .error e) :
    e.raisedByService = true ∨ storable reason = false ∨ 250 < key.length ∨
      ∃ event ∈ ledger.events, event.tenantId = actor.tenantId ∧ event.deduplicationKey = key := by
  simp only [retire, Helpdesk.bind_eq_error, ensure_eq_error, required_eq_error] at h
  rcases h with ⟨-, rfl⟩ | ⟨_, -, ⟨-, rfl⟩ | ⟨_, -, ⟨-, rfl⟩ | ⟨_, -, hinsert | ⟨_, -, haudit | ⟨_, -, hpure⟩⟩⟩⟩⟩
  · exact .inl rfl
  · exact .inl rfl
  · exact .inl rfl
  · exact .inr (insertEvent_eq_error hinsert)
  · exact .inr (.inl (ensure_eq_error.mp haudit).1)
  · cases hpure

end Spec

/-! ## 9. What is kept -/

/-- The operation that writes the events of an action. -/
def PublicationAction.operation : PublicationAction → DocumentOperation
  | published => .publish
  | retired => .retire

theorem keyed_iff {r : IdempotencyRecord} {tenantId : Uuid} {operation : DocumentOperation}
    {key : String} : r.keyed tenantId operation key = true ↔
      r.tenantId = tenantId ∧ r.operationCode = operation ∧ r.idempotencyKey = key := by
  simp [IdempotencyRecord.keyed, and_assoc]

/-- The record of a claim: one that is there, or a new one under a free key. -/
theorem claimIdempotency_cases (tenantId userId : Uuid) (key requestHash : String)
    (operation : DocumentOperation) (ledger : Ledger) :
    (∃ r ∈ ledger.records, r.keyed tenantId operation key = true ∧
        claimIdempotency tenantId userId key requestHash operation ledger = (r, ledger)) ∨
      ((∀ r ∈ ledger.records, r.keyed tenantId operation key = false) ∧
        claimIdempotency tenantId userId key requestHash operation ledger =
          (⟨tenantId, operation, key, userId, requestHash, false, none⟩,
            { ledger with
              records := ledger.records ++
                [⟨tenantId, operation, key, userId, requestHash, false, none⟩] })) := by
  unfold claimIdempotency
  cases hfind : ledger.records.find? (·.keyed tenantId operation key) with
  | some r => exact .inl ⟨r, List.mem_of_find?_eq_some hfind, by simpa using List.find?_some hfind, rfl⟩
  | none =>
      rw [List.find?_eq_none] at hfind
      exact .inr ⟨fun r hr => Bool.eq_false_iff.mpr (hfind r hr), rfl⟩

/-- The claim of a request. -/
def claimOf (service : DocumentService) (request : DocumentRequest) (ledger : Ledger) :
    IdempotencyRecord × Ledger :=
  claimIdempotency request.actor.tenantId request.actor.userId request.idempotencyKey
    (service.requestHash request.documentId request.command) request.command.operation ledger

/-- **A request that succeeds** is a replay under a completed claim, or is performed. -/
theorem perform_eq_ok {replayed : Bool}
    (h : perform service request ledger = .ok (after, replayed)) :
    ∃ document, ledger.store.document request.actor.tenantId request.documentId = some document ∧
      (((claimOf service request ledger).1.completed = true ∧ replayed = true ∧
          after = (claimOf service request ledger).2) ∨
        ((claimOf service request ledger).1.completed = false ∧ replayed = false ∧
          ∃ done, performNew service request document (claimOf service request ledger).2 = .ok done ∧
            after = completeIdempotency (claimOf service request ledger).1 request.documentId
              done)) := by
  have hstore : (claimOf service request ledger).2.store = ledger.store := by
    rcases claimIdempotency_cases request.actor.tenantId request.actor.userId request.idempotencyKey
      (service.requestHash request.documentId request.command) request.command.operation ledger
      with ⟨r, -, -, hclaim⟩ | ⟨-, hclaim⟩ <;> rw [claimOf, hclaim]
  simp only [perform, Helpdesk.bind_eq_ok, required_eq_ok] at h
  obtain ⟨_, -, _, -, document, hdocument, h⟩ := h
  refine ⟨document, hdocument, ?_⟩
  split at h
  · rename_i hcompleted
    obtain ⟨rfl, rfl⟩ := Prod.mk.inj (Except.ok.inj h)
    exact .inl ⟨hcompleted, rfl, rfl⟩
  · rename_i hcompleted
    simp only [Helpdesk.bind_eq_ok, Helpdesk.pure_eq_ok, Prod.mk.injEq] at h
    obtain ⟨done, hdone, rfl, rfl⟩ := h
    exact .inr ⟨Bool.eq_false_iff.mpr hcompleted, rfl, done, hdone, rfl⟩

/-- **A request that fails**, and not by a check of the service, was admitted as new. -/
theorem perform_eq_error {e : DocumentError} (h : perform service request ledger = .error e) :
    e.raisedByService = true ∨ ∃ document,
      ledger.store.document request.actor.tenantId request.documentId = some document ∧
        (claimOf service request ledger).1.completed = false ∧
        performNew service request document (claimOf service request ledger).2 = .error e := by
  simp only [perform, Helpdesk.bind_eq_error, ensure_eq_error, required_eq_error,
    required_eq_ok] at h
  rcases h with ⟨-, rfl⟩ | ⟨_, -, ⟨-, rfl⟩ | ⟨_, -, ⟨-, rfl⟩ | ⟨document, hdocument, h⟩⟩⟩
  · exact .inl rfl
  · exact .inl rfl
  · exact .inl rfl
  · split at h
    · cases h
    · rename_i hcompleted
      simp only [Helpdesk.bind_eq_error] at h
      rcases h with h | ⟨_, -, hpure⟩
      · exact .inr ⟨document, hdocument, Bool.eq_false_iff.mpr hcompleted, h⟩
      · cases hpure

/-- The event of a command that wrote one. -/
structure Recorded (request : DocumentRequest) (before after : Ledger) : Prop where
  records : after.records = before.records
  events : after.events = before.events ∨ ∃ event, after.events = before.events ++ [event] ∧
    event.tenantId = request.actor.tenantId ∧ event.deduplicationKey = request.idempotencyKey ∧
    event.actionCode.operation = request.command.operation

/-- At most one version of a document is the current one. -/
def Store.OneCurrent (store : Store) : Prop :=
  ∀ v ∈ store.versions, ∀ w ∈ store.versions, v.documentId = w.documentId →
    v.currentVersionFlag = true → w.currentVersionFlag = true →
      v.documentVersionId = w.documentVersionId

/-- What the versions of the documents keep: their keys, and that one is current. -/
structure VersionsKept (before after : Store) : Prop where
  ids : after.versions.map (·.documentVersionId) = before.versions.map (·.documentVersionId)
  current : before.OneCurrent → after.OneCurrent

/-- Versions that are changed one by one: of two versions of one document that are
    current afterwards, both were, or they are one. -/
theorem versionsKept_map {before after : Store} {change : DocumentVersion → DocumentVersion}
    (hversions : after.versions = before.versions.map change)
    (hid : ∀ v, (change v).documentVersionId = v.documentVersionId)
    (hdocument : ∀ v, (change v).documentId = v.documentId)
    (hcurrent : ∀ v w, v.documentId = w.documentId → (change v).currentVersionFlag = true →
      (change w).currentVersionFlag = true →
        v.currentVersionFlag = true ∧ w.currentVersionFlag = true ∨
          v.documentVersionId = w.documentVersionId) :
    VersionsKept before after where
  ids := by
    rw [hversions, List.map_map]
    exact List.map_congr_left fun v _ => hid v
  current := by
    intro hone v' hv' w' hw' hsame hvcurrent hwcurrent
    rw [hversions] at hv' hw'
    obtain ⟨v, hv, rfl⟩ := List.mem_map.mp hv'
    obtain ⟨w, hw, rfl⟩ := List.mem_map.mp hw'
    rw [hdocument, hdocument] at hsame
    rw [hid, hid]
    rcases hcurrent v w hsame hvcurrent hwcurrent with ⟨hv₀, hw₀⟩ | heq
    · exact hone v hv w hw hsame hv₀ hw₀
    · exact heq

theorem versionsKept_published {before after : Store} {documentId versionId processingId : Uuid}
    (hversions : after.versions =
      before.versions.map (publishedVersion documentId versionId processingId)) :
    VersionsKept before after := by
  refine versionsKept_map hversions (fun _ => publishedVersion_documentVersionId)
    (fun _ => publishedVersion_documentId) fun v w hsame hv hw => ?_
  have hv' := publishedVersion_current hv
  have hw' := publishedVersion_current hw
  by_cases hdocument : v.documentId = documentId
  · exact .inr ((hv'.1 hdocument).trans (hw'.1 (hsame ▸ hdocument)).symm)
  · exact .inl ⟨hv'.2 hdocument, hw'.2 (hsame ▸ hdocument)⟩

theorem versionsKept_superseded {before after : Store} {documentId versionId : Uuid}
    (hversions : after.versions = before.versions.map (supersededVersion documentId versionId)) :
    VersionsKept before after :=
  versionsKept_map hversions (fun _ => supersededVersion_documentVersionId)
    (fun _ => supersededVersion_documentId) fun _ _ _ hv hw =>
      .inl ⟨(supersededVersion_current hv).1, (supersededVersion_current hw).1⟩

/-- A version that is the current one no more. -/
def endedVersion (versionId : Uuid) (v : DocumentVersion) : DocumentVersion :=
  if v.documentVersionId = versionId then { v with currentVersionFlag := false } else v

theorem endedVersion_id {versionId : Uuid} (v : DocumentVersion) :
    (endedVersion versionId v).documentVersionId = v.documentVersionId := by
  unfold endedVersion
  split <;> rfl

theorem endedVersion_documentId {versionId : Uuid} (v : DocumentVersion) :
    (endedVersion versionId v).documentId = v.documentId := by
  unfold endedVersion
  split <;> rfl

theorem endedVersion_current {versionId : Uuid} {v : DocumentVersion}
    (h : (endedVersion versionId v).currentVersionFlag = true) :
    v.currentVersionFlag = true ∧ v.documentVersionId ≠ versionId := by
  unfold endedVersion at h
  split at h
  · cases h
  · rename_i hne
    exact ⟨h, hne⟩

theorem versionsKept_ended {before after : Store} {versionId : Uuid}
    (hversions : after.versions = before.versions.map (endedVersion versionId)) :
    VersionsKept before after :=
  versionsKept_map hversions endedVersion_id endedVersion_documentId fun _ _ _ hv hw =>
    .inl ⟨(endedVersion_current hv).1, (endedVersion_current hw).1⟩

/-- **What a new command leaves behind.** -/
theorem performNew_kept (h : performNew service request document ledger = .ok after) :
    Recorded request ledger after ∧ VersionsKept ledger.store after.store := by
  have hsame : ∀ change, VersionsKept ledger.store
      (ledger.store.updateDocument document.documentId change) :=
    fun change => ⟨rfl, fun hone => hone⟩
  obtain ⟨now, actor, documentId, command, key⟩ := request
  cases command with
  | approve approved expectedVersion reason =>
      obtain ⟨_, -, -, -, -, rfl⟩ := approve_eq_ok h
      exact ⟨⟨rfl, .inl rfl⟩, hsame _⟩
  | publish processingId expectedVersion reason =>
      obtain ⟨candidate, -, ⟨-, rfl⟩ | ⟨-, rfl, -⟩⟩ := publish_eq_ok h
      · exact ⟨⟨rfl, .inr ⟨_, rfl, rfl, rfl, rfl⟩⟩, versionsKept_published rfl⟩
      · exact ⟨⟨rfl, .inl rfl⟩, versionsKept_superseded rfl⟩
  | retire expectedVersion reason =>
      obtain ⟨current, processingId, -, -, -, rfl⟩ := retire_eq_ok h
      exact ⟨⟨rfl, .inr ⟨_, rfl, rfl, rfl, rfl⟩⟩, versionsKept_ended rfl⟩

/-- The tables' own constraints, and a completed record behind every event. -/
structure Ledger.Sound (ledger : Ledger) : Prop where
  versionKey : (ledger.store.versions.map (·.documentVersionId)).Nodup
  /-- `kb_one_current_version_ux` -/
  oneCurrent : ledger.store.OneCurrent
  /-- UNIQUE (tenant_id, operation_code, idempotency_key) -/
  recordKey : ∀ r ∈ ledger.records, ∀ r' ∈ ledger.records,
    r'.keyed r.tenantId r.operationCode r.idempotencyKey = true → r' = r
  recorded : ∀ e ∈ ledger.events, ∃ r ∈ ledger.records, r.completed = true ∧
    r.keyed e.tenantId e.actionCode.operation e.deduplicationKey = true

variable (service request) in
/-- The claim keeps a sound ledger so, and its record is in it. -/
theorem claimOf_sound (hsound : ledger.Sound) :
    (claimOf service request ledger).2.Sound ∧
      (claimOf service request ledger).1 ∈ (claimOf service request ledger).2.records ∧
      (claimOf service request ledger).1.keyed request.actor.tenantId request.command.operation
        request.idempotencyKey = true ∧
      (claimOf service request ledger).2.store = ledger.store ∧
      (claimOf service request ledger).2.events = ledger.events ∧
      ((claimOf service request ledger).1.completed = true →
        (claimOf service request ledger).2 = ledger) := by
  rcases claimIdempotency_cases request.actor.tenantId request.actor.userId request.idempotencyKey
    (service.requestHash request.documentId request.command) request.command.operation ledger
    with ⟨r, hr, hkeyed, hclaim⟩ | ⟨hfree, hclaim⟩
  · rw [claimOf, hclaim]
    exact ⟨hsound, hr, hkeyed, rfl, rfl, fun _ => rfl⟩
  · rw [claimOf, hclaim]
    refine ⟨⟨hsound.versionKey, hsound.oneCurrent, ?_, ?_⟩, List.mem_append_right _
      (List.mem_singleton_self _), keyed_iff.mpr ⟨rfl, rfl, rfl⟩, rfl, rfl, fun hcompleted => ?_⟩
    · intro r hr r' hr' hkeyed
      rcases List.mem_append.mp hr with hold | hnew
      · rcases List.mem_append.mp hr' with hold' | hnew'
        · exact hsound.recordKey r hold r' hold' hkeyed
        · -- the new record's key is free
          rw [List.mem_singleton.mp hnew'] at hkeyed
          obtain ⟨htenant, hoperation, hkey⟩ := keyed_iff.mp hkeyed
          have hnot := hfree r hold
          rw [keyed_iff.mpr ⟨htenant.symm, hoperation.symm, hkey.symm⟩] at hnot
          cases hnot
      · rw [List.mem_singleton.mp hnew] at hkeyed ⊢
        rcases List.mem_append.mp hr' with hold' | hnew'
        · rw [hfree r' hold'] at hkeyed
          cases hkeyed
        · exact List.mem_singleton.mp hnew'
    · intro e he
      obtain ⟨r, hr, hcompleted, hkeyed⟩ := hsound.recorded e he
      exact ⟨r, List.mem_append_left _ hr, hcompleted, hkeyed⟩
    · cases hcompleted

/-- Completing the record of a key. -/
theorem completeIdempotency_sound {record : IdempotencyRecord} {documentId : Uuid}
    (hversionKey : (ledger.store.versions.map (·.documentVersionId)).Nodup)
    (honeCurrent : ledger.store.OneCurrent)
    (hrecordKey : ∀ r ∈ ledger.records, ∀ r' ∈ ledger.records,
      r'.keyed r.tenantId r.operationCode r.idempotencyKey = true → r' = r)
    (hrecord : record ∈ ledger.records)
    (hrecorded : ∀ e ∈ ledger.events,
      (∃ r ∈ ledger.records, r.completed = true ∧
        r.keyed e.tenantId e.actionCode.operation e.deduplicationKey = true) ∨
      record.keyed e.tenantId e.actionCode.operation e.deduplicationKey = true) :
    (completeIdempotency record documentId ledger).Sound := by
  let complete := fun r : IdempotencyRecord =>
    if r.keyed record.tenantId record.operationCode record.idempotencyKey then
      { r with completed := true, resultResourceId := some documentId } else r
  have hkeyed : ∀ r tenantId operation key,
      (complete r).keyed tenantId operation key = r.keyed tenantId operation key := by
    intro r tenantId operation key
    dsimp only [complete]
    split <;> rfl
  have hfields : ∀ r r', (complete r).keyed (complete r').tenantId (complete r').operationCode
      (complete r').idempotencyKey = r.keyed r'.tenantId r'.operationCode r'.idempotencyKey := by
    intro r r'
    rw [hkeyed]
    dsimp only [complete]
    split <;> rfl
  have hcompleted : ∀ r, r.completed = true → (complete r).completed = true := by
    intro r hr
    dsimp only [complete]
    split
    · rfl
    · exact hr
  refine ⟨hversionKey, honeCurrent, ?_, ?_⟩
  · intro r hr r' hr' hsame
    obtain ⟨r₀, hr₀, rfl⟩ := List.mem_map.mp hr
    obtain ⟨r₀', hr₀', rfl⟩ := List.mem_map.mp hr'
    have heq := hrecordKey r₀ hr₀ r₀' hr₀' ((hfields r₀' r₀).symm.trans hsame)
    rw [heq]
  · intro e he
    rcases hrecorded e he with ⟨r, hr, hdone, hkey⟩ | hkey
    · exact ⟨complete r, List.mem_map_of_mem hr, hcompleted r hdone, (hkeyed _ _ _ _).trans hkey⟩
    · refine ⟨complete record, List.mem_map_of_mem hrecord, ?_, (hkeyed _ _ _ _).trans hkey⟩
      dsimp only [complete]
      rw [if_pos (keyed_iff.mpr ⟨rfl, rfl, rfl⟩)]

/-- **A request keeps a sound ledger so.** -/
theorem perform_sound {replayed : Bool} (hsound : ledger.Sound)
    (h : perform service request ledger = .ok (after, replayed)) : after.Sound := by
  obtain ⟨hclaimed, hrecord, hkeyed, -, -, -⟩ :=
    claimOf_sound service request hsound
  obtain ⟨document, -, ⟨-, -, rfl⟩ | ⟨-, -, done, hdone, rfl⟩⟩ := perform_eq_ok h
  · exact hclaimed
  · obtain ⟨hrecorded, hversions⟩ := performNew_kept hdone
    refine completeIdempotency_sound (hversions.ids ▸ hclaimed.versionKey)
      (hversions.current hclaimed.oneCurrent) (hrecorded.records ▸ hclaimed.recordKey)
      (hrecorded.records ▸ hrecord) fun e he => ?_
    rw [hrecorded.records]
    rcases hrecorded.events with hsame | ⟨event, happend, htenant, hkey, hoperation⟩
    · exact .inl (hclaimed.recorded e (hsame ▸ he))
    · rw [happend] at he
      rcases List.mem_append.mp he with hold | hnew
      · exact .inl (hclaimed.recorded e hold)
      · rw [List.mem_singleton.mp hnew, htenant, hkey, hoperation]
        exact .inr hkeyed

/-! ## 10. The commands of the knowledge base -/

/-- The command of `Documents.lean` that a request is. -/
def storeCommand (service : DocumentService) (request : DocumentRequest) (store : Store) :
    Option Store :=
  match request.command with
  | .approve approved expectedVersion _ =>
      approveDocument request.actor request.documentId approved expectedVersion store
  | .publish processingId expectedVersion _ =>
      publishDocument service.oracleEnabled request.now request.actor request.documentId
        processingId expectedVersion store
  | .retire expectedVersion _ =>
      retireDocument request.actor request.documentId expectedVersion store

/-- The version with a key, among versions whose keys differ. -/
theorem find?_version {store : Store} (hkey : (store.versions.map (·.documentVersionId)).Nodup)
    {documentId versionId : Uuid} {v : DocumentVersion} (hv : v ∈ store.versions)
    (hdocument : v.documentId = documentId) (hversion : v.documentVersionId = versionId) :
    (store.versions.find? fun w => w.documentId = documentId && w.documentVersionId = versionId) =
      some v := by
  cases hfind : store.versions.find? fun w =>
      w.documentId = documentId && w.documentVersionId = versionId with
  | none =>
      have hno := List.find?_eq_none.mp hfind v hv
      exact absurd (by simp [hdocument, hversion]) hno
  | some w =>
      have hw := List.find?_some hfind
      rw [Bool.and_eq_true, decide_eq_true_eq, decide_eq_true_eq] at hw
      exact congrArg some (List.inj_on_of_nodup_map hkey (List.mem_of_find?_eq_some hfind) hv
        (hw.2.trans hversion.symm))

/-- The checks of `publish` are those of the command. -/
theorem publicationChecks_publishDocument {store : Store} {now : Instant} {documentId processingId : Uuid}
    {expectedVersion : Nat} {candidate : ProcessingVersion}
    (hdocument : store.document actor.tenantId documentId = some document)
    (h : publicationChecks service now actor document processingId expectedVersion store =
      .ok candidate) :
    publishDocument service.oracleEnabled now actor documentId processingId expectedVersion store =
      (store.versions.find? fun v =>
          v.documentId = documentId && v.documentVersionId = candidate.documentVersionId).bind
        fun version =>
          if version.publishable then
            some (publishVersion actor.tenantId document version.documentVersionId processingId store)
          else if version.currentVersionFlag then
            some { store with
              versions := store.versions.map
                (supersededVersion documentId version.documentVersionId) }
          else none := by
  obtain ⟨-, rfl⟩ := Store.document_eq_some hdocument
  simp only [publicationChecks, Helpdesk.bind_eq_ok, required_eq_ok, Helpdesk.pure_eq_ok,
    ensure_eq_ok, Bool.and_eq_true, decide_eq_true_eq] at h
  obtain ⟨_, hversion, _, ⟨happroved, hactive⟩, found, hfound, _, ⟨hstatus, hvalidation⟩, _,
    ⟨hcount, hembedded⟩, source, hsource, _, hreasons, _, ⟨⟨hlineage, hchunks⟩, hembeddings⟩,
    rfl⟩ := h
  have hpublishable : found.publishable = true := by
    simp only [ProcessingVersion.publishable, Bool.and_eq_true, decide_eq_true_eq]
    exact ⟨⟨⟨hstatus, hvalidation⟩, hcount⟩, hembedded⟩
  simp only [publishDocument, Option.bind_eq_bind, hdocument, Option.bind_some]
  rw [if_neg (by simp [hversion, happroved, hactive]), hfound]
  simp only [Option.bind_some, hsource]
  rw [if_neg ?_]
  · rfl
  · rintro (h | h | h | h | h)
    · rw [hpublishable] at h
      cases h
    · exact h hreasons
    · rw [hlineage] at h
      cases h
    · exact h hchunks
    · exact h hembeddings

/-- **On the knowledge base a request that succeeds is the command.** -/
theorem perform_store (hsound : ledger.Sound)
    (h : perform service request ledger = .ok (after, false)) :
    storeCommand service request ledger.store = some after.store := by
  obtain ⟨-, -, -, hstore, -, -⟩ := claimOf_sound service request hsound
  obtain ⟨document, hdocument, ⟨-, hfalse, -⟩ | ⟨-, -, done, hdone, rfl⟩⟩ := perform_eq_ok h
  · cases hfalse
  generalize claimOf service request ledger = claimed at *
  have hversionKey := hsound.versionKey
  obtain ⟨-, hid⟩ := Store.document_eq_some hdocument
  rw [← hstore] at hdocument hversionKey ⊢
  obtain ⟨now, actor, documentId, command, key⟩ := request
  cases command with
  | approve approved expectedVersion reason =>
      obtain ⟨source, hsource, howner, hversion, hretired, rfl⟩ := approve_eq_ok hdone
      subst hid
      simp only [storeCommand, approveDocument, Option.bind_eq_bind, hdocument, Option.bind_some,
        hsource]
      rw [if_neg (by simp [howner]), if_neg (by simp [hversion, hretired])]
      rfl
  | publish processingId expectedVersion reason =>
      obtain ⟨candidate, hchecks, hresult⟩ := publish_eq_ok hdone
      show publishDocument _ _ _ _ _ _ _ = _
      rw [publicationChecks_publishDocument hdocument hchecks]
      subst hid
      rcases hresult with ⟨hmay, rfl⟩ | ⟨hmay, hdoneStore, v, hv, hvdocument, hvversion, hvcurrent⟩
      · obtain ⟨v, hv, hcond⟩ := List.any_eq_true.mp hmay
        simp only [Bool.and_eq_true, decide_eq_true_eq] at hcond
        rw [find?_version hversionKey hv hcond.1.1 hcond.1.2, Option.bind_some,
          if_pos hcond.2, hcond.1.2]
        rfl
      · rw [hdoneStore] at hv
        obtain ⟨v₀, hv₀, rfl⟩ := List.mem_map.mp hv
        rw [supersededVersion_documentId] at hvdocument
        rw [supersededVersion_documentVersionId] at hvversion
        have hno : v₀.publishable = false := by
          have hany := List.any_eq_false.mp hmay v₀ hv₀
          simpa [hvdocument, hvversion] using hany
        rw [find?_version hversionKey hv₀ hvdocument hvversion, Option.bind_some, hno,
          if_neg Bool.false_ne_true, if_pos (supersededVersion_current hvcurrent).1, hvversion,
          hdoneStore]
        rfl
  | retire expectedVersion reason =>
      obtain ⟨current, processingId, hversion, hcurrent, hprocessing, rfl⟩ := retire_eq_ok hdone
      subst hid
      simp only [Store.currentVersion] at hcurrent
      simp only [storeCommand, retireDocument, Option.bind_eq_bind, hdocument, Option.bind_some,
        hcurrent]
      rw [if_neg (by simp [hversion, hprocessing])]
      rfl

/-! ## 11. Honest publication -/

/-- What a command reports when it succeeds. -/
def Reported (request : DocumentRequest) (before after : Ledger) : Prop :=
  match request.command with
  | .approve _ _ _ => after.events = before.events
  | .publish processingId _ reason =>
      ∃ p ∈ before.store.processings, ∃ previous,
        p.documentId = request.documentId ∧ p.processingVersionId = processingId ∧
        after.events = before.events ++ [⟨request.actor.tenantId, request.documentId,
          p.documentVersionId, processingId, .published, request.actor.userId, previous, reason,
          request.idempotencyKey⟩] ∧
        (∀ v ∈ after.store.versions, v.documentId = request.documentId →
          (v.currentVersionFlag = true ↔ v.documentVersionId = p.documentVersionId)) ∧
        ∃ v ∈ after.store.versions, v.documentId = request.documentId ∧
          v.documentVersionId = p.documentVersionId ∧
          v.publishedProcessingVersionId = some processingId
  | .retire _ reason =>
      ∃ v ∈ before.store.versions, ∃ processingId, v.documentId = request.documentId ∧
        v.currentVersionFlag = true ∧ v.publishedProcessingVersionId = some processingId ∧
        after.events = before.events ++ [⟨request.actor.tenantId, request.documentId,
          v.documentVersionId, processingId, .retired, request.actor.userId,
          some v.documentVersionId, reason, request.idempotencyKey⟩] ∧
        ∀ w ∈ after.store.versions, w.documentId = request.documentId → w.currentVersionFlag = false

/-- **Honest publication, for one request**: a `publish` or `retire` that the service
    does not refuse succeeds with what it reports, a refused request and a replay
    change nothing. -/
def Honest (service : DocumentService) (ledger : Ledger) (request : DocumentRequest) : Prop :=
  match perform service request ledger with
  | .error e => afterRequest service ledger request = ledger ∧
      (e.raisedByService = true ∨ request.command.operation = .approval)
  | .ok (after, true) => after = ledger
  | .ok (after, false) => Reported request ledger after

/-- The operation whose events would take the same key. -/
def DocumentOperation.other : DocumentOperation → DocumentOperation
  | publish => .retire
  | retire => .publish
  | approval => .approval

/-- A key that fits the event table and that the tenant's other operation has not used,
    with a reason that can be stored. -/
def FreshKey (ledger : Ledger) (request : DocumentRequest) (reason : String) : Prop :=
  storable reason = true ∧ request.idempotencyKey.length ≤ 250 ∧
    ∀ r ∈ ledger.records, r.completed = true →
      r.keyed request.actor.tenantId request.command.operation.other request.idempotencyKey = false

/-- **The condition under which a request is honest**: its key is fresh, and a version
    that is published again may be published. -/
def Fresh (ledger : Ledger) (request : DocumentRequest) : Prop :=
  match request.command with
  | .approve _ _ _ => True
  | .publish processingId _ reason => FreshKey ledger request reason ∧
      ∀ p ∈ ledger.store.processings, p.documentId = request.documentId →
        p.processingVersionId = processingId → ∀ v ∈ ledger.store.versions,
          v.documentId = request.documentId → v.documentVersionId = p.documentVersionId →
            v.currentVersionFlag = true → v.publishable = true
  | .retire _ reason => FreshKey ledger request reason

instance (ledger : Ledger) (request : DocumentRequest) (reason : String) :
    Decidable (FreshKey ledger request reason) := by
  unfold FreshKey
  infer_instance

instance (ledger : Ledger) (request : DocumentRequest) : Decidable (Fresh ledger request) := by
  unfold Fresh
  split <;> infer_instance

/-- Under a fresh key nothing stops the event. -/
theorem FreshKey.unblocked {reason : String} (hsound : ledger.Sound)
    (hfresh : FreshKey ledger request reason)
    (hoperation : request.command.operation ≠ .approval)
    (hopen : (claimOf service request ledger).1.completed = false) :
    ¬ (storable reason = false ∨ 250 < request.idempotencyKey.length ∨
      ∃ event ∈ (claimOf service request ledger).2.events,
        event.tenantId = request.actor.tenantId ∧
          event.deduplicationKey = request.idempotencyKey) := by
  obtain ⟨hreason, hlength, hother⟩ := hfresh
  obtain ⟨hclaimed, hrecord, hkeyed, -, hevents, -⟩ :=
    claimOf_sound service request hsound
  rintro (h | h | ⟨event, hevent, htenant, hkey⟩)
  · rw [hreason] at h
    cases h
  · exact absurd hlength (Nat.not_le.mpr h)
  · rw [hevents] at hevent
    obtain ⟨r, hr, hcompleted, hr'⟩ := hsound.recorded event hevent
    rw [htenant, hkey] at hr'
    -- the event is of this operation, whose claim is open, or of the other one
    have hsame : event.actionCode.operation = request.command.operation ∨
        event.actionCode.operation = request.command.operation.other := by
      cases haction : event.actionCode <;> cases hop : request.command.operation <;>
        simp_all [PublicationAction.operation, DocumentOperation.other]
    rcases hsame with hsame | hsame
    · rw [hsame] at hr'
      have hrecord' : r ∈ (claimOf service request ledger).2.records := by
        rcases claimIdempotency_cases request.actor.tenantId request.actor.userId
          request.idempotencyKey (service.requestHash request.documentId request.command)
          request.command.operation ledger with ⟨_, -, -, hclaim⟩ | ⟨-, hclaim⟩
        · rw [claimOf, hclaim]
          exact hr
        · rw [claimOf, hclaim]
          exact List.mem_append_left _ hr
      obtain ⟨h₁, h₂, h₃⟩ := keyed_iff.mp hkeyed
      have heq := hclaimed.recordKey _ hrecord r hrecord' (by rw [h₁, h₂, h₃]; exact hr')
      rw [← heq, hcompleted] at hopen
      cases hopen
    · rw [hsame] at hr'
      rw [hother r hr hcompleted] at hr'
      cases hr'

/-- **A request under a fresh key is honest.** -/
theorem honest_of_fresh (hsound : ledger.Sound) (hfresh : Fresh ledger request) :
    Honest service ledger request := by
  obtain ⟨-, -, -, hstore, hevents, hreplay⟩ :=
    claimOf_sound service request hsound
  unfold Honest
  cases hperform : perform service request ledger with
  | error e =>
      refine ⟨by rw [afterRequest, hperform], ?_⟩
      rcases perform_eq_error hperform with hservice | ⟨document, -, hopen, hnew⟩
      · exact .inl hservice
      · cases hcommand : request.command with
        | approve approved expectedVersion reason => exact .inr rfl
        | publish processingId expectedVersion reason =>
            simp only [Fresh, hcommand] at hfresh
            simp only [performNew, hcommand] at hnew
            refine .inl ((publish_eq_error hnew).resolve_right ?_)
            exact hfresh.1.unblocked hsound (by rw [hcommand]; exact fun h => nomatch h) hopen
        | retire expectedVersion reason =>
            simp only [Fresh, hcommand] at hfresh
            simp only [performNew, hcommand] at hnew
            refine .inl ((retire_eq_error hnew).resolve_right ?_)
            exact hfresh.unblocked hsound (by rw [hcommand]; exact fun h => nomatch h) hopen
  | ok result =>
      obtain ⟨after, replayed⟩ := result
      obtain ⟨document, hdocument, hresult⟩ := perform_eq_ok hperform
      obtain ⟨-, hid⟩ := Store.document_eq_some hdocument
      rcases hresult with ⟨hcompleted, rfl, rfl⟩ | ⟨-, rfl, done, hdone, rfl⟩
      · exact hreplay hcompleted
      · have hdoneStore : (completeIdempotency (claimOf service request ledger).1
            request.documentId done).store = done.store := rfl
        have hdoneEvents : (completeIdempotency (claimOf service request ledger).1
            request.documentId done).events = done.events := rfl
        show Reported request ledger _
        unfold Reported
        cases hcommand : request.command with
        | approve approved expectedVersion reason =>
            simp only [performNew, hcommand] at hdone
            obtain ⟨_, -, -, -, -, rfl⟩ := approve_eq_ok hdone
            exact hevents
        | publish processingId expectedVersion reason =>
            simp only [performNew, hcommand] at hdone
            simp only [Fresh, hcommand] at hfresh
            obtain ⟨p, hchecks, hresult⟩ := publish_eq_ok hdone
            obtain ⟨hp, hpdocument, hpid⟩ := publicationChecks_eq_ok hchecks
            rw [hstore] at hp
            rw [hid] at hpdocument
            rcases hresult with ⟨hmay, rfl⟩ | ⟨hmay, hdoneEq, v, hv, hvdocument, hvversion, hvcurrent⟩
            · obtain ⟨v, hv, hcond⟩ := List.any_eq_true.mp hmay
              simp only [Bool.and_eq_true, decide_eq_true_eq] at hcond
              obtain ⟨⟨hvdocument, hvversion⟩, hpublishable⟩ := hcond
              have hrequested :=
                publishedVersion_requested processingId hvdocument hvversion hpublishable
              refine ⟨p, hp, (ledger.store.currentVersion document.documentId).map
                (·.documentVersionId), hpdocument, hpid, ?_, ?_, ?_⟩
              · rw [hdoneEvents, ← hid]
                dsimp only
                rw [hevents, publishedEvent, hstore]
              · rw [hdoneStore]
                intro w' hw' hwdocument
                obtain ⟨w, hw, rfl⟩ := List.mem_map.mp hw'
                rw [publishedVersion_documentId, ← hid] at hwdocument
                rw [publishedVersion_documentVersionId]
                refine ⟨fun hcurrent => (publishedVersion_current hcurrent).1 hwdocument,
                  fun hversion => ?_⟩
                have heq : w = v := by
                  rw [hstore] at hw hv
                  exact List.inj_on_of_nodup_map hsound.versionKey hw hv
                    (hversion.trans hvversion.symm)
                rw [heq, hrequested]
              · rw [hdoneStore]
                refine ⟨_, List.mem_map_of_mem hv, ?_, ?_, ?_⟩
                · rw [publishedVersion_documentId, hvdocument, hid]
                · rw [publishedVersion_documentVersionId, hvversion]
                · rw [hrequested]
            · -- the current version, which the condition says may be published
              rw [hdoneEq] at hv
              obtain ⟨v₀, hv₀, rfl⟩ := List.mem_map.mp hv
              rw [supersededVersion_documentId] at hvdocument
              rw [supersededVersion_documentVersionId] at hvversion
              have hpublishable := hfresh.2 p hp hpdocument hpid v₀ (hstore ▸ hv₀)
                (hvdocument.trans hid) hvversion (supersededVersion_current hvcurrent).1
              have hany := List.any_eq_false.mp hmay v₀ hv₀
              exact absurd (by simp [hvdocument, hvversion, hpublishable]) hany
        | retire expectedVersion reason =>
            simp only [performNew, hcommand] at hdone
            obtain ⟨current, processingId, -, hcurrent, hprocessing, rfl⟩ := retire_eq_ok hdone
            obtain ⟨hmem, hdocumentId, hflag⟩ := Store.currentVersion_eq_some hcurrent
            rw [hstore] at hmem
            refine ⟨current, hmem, processingId, hdocumentId.trans hid, hflag, hprocessing, ?_, ?_⟩
            · rw [hdoneEvents, ← hid]
              dsimp only
              rw [hevents, retiredEvent]
            · intro w' hw' hwdocument
              have hended : w' ∈ ledger.store.versions.map
                  (endedVersion current.documentVersionId) := by
                rw [← hstore]
                exact hw'
              obtain ⟨w, hw, rfl⟩ := List.mem_map.mp hended
              rw [endedVersion_documentId] at hwdocument
              by_contra hwcurrent
              obtain ⟨hwflag, hne⟩ := endedVersion_current (Bool.of_not_eq_false hwcurrent)
              exact hne (hsound.oneCurrent w hw current hmem
                (hwdocument.trans (hdocumentId.trans hid).symm) hwflag hflag)

/-- **Honest publication along a run**: from a sound ledger, where every request met the
    condition, the ledger is sound, and the next one that meets it is honest. -/
theorem publications_honest (service : DocumentService) {ledger₀ ledger : Ledger}
    {requests : List DocumentRequest} (hsound : ledger₀.Sound)
    (hrun : Run (Guarded Fresh fun l request l' => l' = afterRequest service l request) ledger₀
      requests ledger) :
    ledger.Sound ∧ ∀ request, Fresh ledger request → Honest service ledger request := by
  have hkept : ledger.Sound := by
    refine hrun.invariant hsound ?_
    rintro l request l' hl ⟨-, rfl⟩
    unfold afterRequest
    split
    · rename_i after replayed hperform
      exact perform_sound hl hperform
    · exact hl
  exact ⟨hkept, fun request hfresh => honest_of_fresh hkept hfresh⟩

/-! ## 12. One key for two operations -/

def allowAll : DocumentService where
  isAllowed := fun _ _ => true
  oracleEnabled := true
  requestHash := fun _ _ => ""

def publicationActor : Actor := ⟨3, 9, []⟩

/-- The guides without a publication. -/
def guidesLedger : Ledger where
  store := { guidesStore with
    versions := [guideVersion 10 11 none, guideVersion 20 21 none] }
  records := []
  events := []

theorem guidesLedger_sound : guidesLedger.Sound where
  versionKey := by decide
  oneCurrent := by
    intro v hv w _ _ hcurrent
    simp only [guidesLedger, List.mem_cons, List.not_mem_nil, or_false] at hv
    rcases hv with rfl | rfl <;> cases hcurrent
  recordKey := fun r hr => nomatch hr
  recorded := fun e he => nomatch he

def publishGuide (key : String) : DocumentRequest :=
  ⟨5, publicationActor, 20, .publish 22 1 "reviewed", key⟩

def retireGuide (key : String) : DocumentRequest :=
  ⟨6, publicationActor, 20, .retire 2 "outdated", key⟩

/-- Published under one key, the guide can be retired under another. -/
theorem publications_honest_guide :
    Fresh guidesLedger (publishGuide "publish-guide") ∧
      (∃ ledger, Run (Guarded Fresh fun l request l' => l' = afterRequest allowAll l request)
          guidesLedger [publishGuide "publish-guide"] ledger ∧
        Fresh ledger (retireGuide "retire-guide") ∧
        Honest allowAll ledger (retireGuide "retire-guide")) := by
  have hfresh : Fresh guidesLedger (publishGuide "publish-guide") := by decide +kernel
  have hstart : Run (Guarded Fresh fun l request l' => l' = afterRequest allowAll l request)
      guidesLedger [] guidesLedger := .start
  have hrun := hstart.next ⟨hfresh, rfl⟩
  have hnext : Fresh (afterRequest allowAll guidesLedger (publishGuide "publish-guide"))
      (retireGuide "retire-guide") := by decide +kernel
  exact ⟨hfresh, _, hrun, hnext, (publications_honest allowAll guidesLedger_sound hrun).2 _ hnext⟩

/-- **Retiring a document under the key it was published with fails on the event
    table.** -/
theorem retire_under_published_key :
    ¬ ∀ (service : DocumentService) (ledger₀ ledger : Ledger) (requests : List DocumentRequest),
      ledger₀.Sound → Run (fun l request l' => l' = afterRequest service l request) ledger₀ requests
        ledger → ∀ request, Honest service ledger request := by
  intro hclaim
  have hstart : Run (fun l request l' => l' = afterRequest allowAll l request) guidesLedger []
      guidesLedger := .start
  have hrun := hstart.next (l := publishGuide "one-key-for-both") rfl
  have hhonest := hclaim allowAll _ _ _ guidesLedger_sound hrun (retireGuide "one-key-for-both")
  have hraised : (match perform allowAll (retireGuide "one-key-for-both")
      (afterRequest allowAll guidesLedger (publishGuide "one-key-for-both")) with
    | .error e => some e
    | .ok _ => none) = some DocumentError.eventKeyTaken := by decide +kernel
  unfold Honest at hhonest
  split at hhonest
  · rename_i e he
    rw [he] at hraised
    obtain rfl := Option.some.inj hraised
    rcases hhonest.2 with h | h <;> cases h
  · rename_i he
    rw [he] at hraised
    cases hraised
  · rename_i he
    rw [he] at hraised
    cases hraised

end Helpdesk.Knowledge
