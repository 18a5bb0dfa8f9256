/-
  File:      Helpdesk/Knowledge/CorpusPublication.lean
  Subject:   Publication of a tenant's corpus and its rollback (apps/api/app/knowledge:
             corpus_publication_repository.py, corpus_publication_service.py).

  Each definition is one command with a new idempotency key; `none` is a conflict. The
  events and the audit are left out.
-/
import Helpdesk.Knowledge.CorpusValidation

namespace Helpdesk.Knowledge

open Helpdesk.Python

/-! ## 1. Readiness -/

/-- `ORDER BY created_at DESC,run_id DESC`. -/
def laterRun (a b : CorpusRun) : Prop :=
  b.createdAt < a.createdAt ∨ a.createdAt = b.createdAt ∧ b.runId ≤ a.runId

instance : DecidableRel laterRun := fun _ _ => inferInstanceAs (Decidable (_ ∨ _))

/-- The latest validation run of the tenant. -/
def Store.latestRun (store : Store) (tenantId : Uuid) : Option CorpusRun :=
  ((store.corpusRuns.filter fun r => r.tenantId = tenantId).insertionSort laterRun).head?

/-- `_STALENESS_SQL` finds a processing version. -/
def Store.stale (store : Store) (tenantId : Uuid) (startedAt : Instant) : Bool :=
  store.processings.any fun p => startedAt < p.createdAt && store.documents.any fun d =>
    d.documentId = p.documentId && visibleTo tenantId d.tenantId && d.activeFlag

inductive PublicationBlocker where
  | noValidationRun | validationRunTruncated | validationStale
  deriving DecidableEq, Repr

/-- `readiness` and `_blockers`; runs are always completed. -/
def blockers (store : Store) (tenantId : Uuid) : List PublicationBlocker :=
  match store.latestRun tenantId with
  | none => [.noValidationRun]
  | some run =>
      raised
        [(run.truncatedFlag, .validationRunTruncated),
         (store.stale tenantId run.startedAt, PublicationBlocker.validationStale)]

/-! ## 2. `publish` -/

/-- `deactivate_active`. -/
def deactivateActive (tenantId : Uuid) (v : CorpusVersion) : CorpusVersion :=
  if v.tenantId = tenantId && v.activeFlag then
    { v with activeFlag := false, rowVersion := v.rowVersion + 1 }
  else v

/-- `corpus_counts`. -/
def corpusCounts (store : Store) (tenantId : Uuid) : Nat × Nat :=
  (store.documents.countP fun d => d.activeFlag && visibleTo tenantId d.tenantId,
    store.chunks.countP fun c => c.tenantId = tenantId)

/-- The chunks that `snapshot_suppressed_chunks` records. -/
def suppressedIds (store : Store) (tenantId : Uuid) : List Uuid :=
  (store.chunks.filter fun c => c.tenantId = tenantId && c.nearDuplicateSuppressedFlag).map
    (·.chunkId)

/-- The version `publish` inserts. -/
def newCorpusVersion (store : Store) (tenantId : Uuid) (run : CorpusRun) : CorpusVersion where
  corpusVersionId := store.nextId
  tenantId
  versionNumber := ((store.corpusVersions.filter fun v => v.tenantId = tenantId).map
    (·.versionNumber)).foldr max 0 + 1
  validationRunId := run.runId
  documentCount := (corpusCounts store tenantId).1
  chunkCount := (corpusCounts store tenantId).2
  suppressedChunkCount := (suppressedIds store tenantId).length
  activeFlag := true
  rowVersion := 1

/-- `CorpusPublicationService.publish`. -/
def publishCorpus (tenantId : Uuid) (store : Store) : Option (CorpusVersion × Store) := do
  if blockers store tenantId ≠ [] then none
  else
    let run ← store.latestRun tenantId
    let version := newCorpusVersion store tenantId run
    return (version, { store with
      corpusVersions := store.corpusVersions.map (deactivateActive tenantId) ++ [version]
      suppressedChunks := store.suppressedChunks ++ (suppressedIds store tenantId).map
        fun chunkId => ⟨version.corpusVersionId, tenantId, chunkId⟩
      nextId := store.nextId + 1 })

/-! ## 3. `rollback` -/

/-- `ORDER BY version_number DESC`. -/
def newerCorpusVersion (a b : CorpusVersion) : Prop := b.versionNumber ≤ a.versionNumber

instance : DecidableRel newerCorpusVersion :=
  fun a b => inferInstanceAs (Decidable (b.versionNumber ≤ a.versionNumber))

/-- `active_version`. -/
def Store.activeVersion (store : Store) (tenantId : Uuid) : Option CorpusVersion :=
  store.corpusVersions.find? fun v => v.tenantId = tenantId && v.activeFlag

/-- `previous_version`. -/
def Store.previousVersion (store : Store) (tenantId : Uuid) (before : Nat) : Option CorpusVersion :=
  ((store.corpusVersions.filter fun v => v.tenantId = tenantId && v.versionNumber < before
    ).insertionSort newerCorpusVersion).head?

/-- `activate_version`. -/
def activateVersion (tenantId versionId : Uuid) (v : CorpusVersion) : CorpusVersion :=
  if v.tenantId = tenantId && v.corpusVersionId = versionId then
    { v with activeFlag := true, rowVersion := v.rowVersion + 1 }
  else v

/-- `CorpusPublicationService.rollback`. -/
def rollbackCorpus (tenantId : Uuid) (store : Store) : Option (CorpusVersion × Store) := do
  let active ← store.activeVersion tenantId
  let target ← store.previousVersion tenantId active.versionNumber
  let switched := fun v => activateVersion tenantId target.corpusVersionId (deactivateActive tenantId v)
  return (switched target, { store with corpusVersions := store.corpusVersions.map switched })

end Helpdesk.Knowledge
