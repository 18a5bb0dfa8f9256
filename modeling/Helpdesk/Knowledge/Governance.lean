/-
  File:      Helpdesk/Knowledge/Governance.lean
  Subject:   The permission of a source to be acquired from (apps/api/app/knowledge:
             acquisition_permission_reasons in service.py, get and
             effective_authorization in repository.py).
-/
import Helpdesk.Knowledge.Database
import Mathlib.Data.List.Sort

namespace Helpdesk.Knowledge

open Helpdesk.Python

/-- The codes of the checks that hold, in the order of the checks. -/
def raised {α : Type} (checks : List (Bool × α)) : List α :=
  (checks.filter (·.1)).map (·.2)

/-- The reasons of `acquisition_permission_reasons`, and those the workers add. -/
inductive PermissionReason where
  | sourceNotActive | sourceNotApproved | externalAcquisitionNotConfigured
  | automatedAccessNotAuthorized | approvedAllowlistEntryMissing | allowlistMethodMismatch
  | oracleAutomatedAcquisitionDisabled | sourceVersionChanged | manifestVersionChanged
  | manifestEntryDisabled | manifestEntryNotApproved | manifestMethodMismatch
  | manifestPermissionReferenceMissing
  deriving DecidableEq, Repr

/-- `_EXTERNAL_METHODS`. -/
def externalMethods : List AcquisitionMethod :=
  [.approvedDirectDownload, .apiFeed, .repositoryConnector]

/-- `acquisition_permission_reasons`; the first argument is the setting
    `oracle_document_acquisition_enabled`. -/
def acquisitionPermissionReasons (oracleEnabled : Bool) (source : Source)
    (authorization : Option SourceAuthorization) (external : Bool) : List PermissionReason :=
  let missing := !authorization.any (·.approved)
  raised
    [(source.sourceStatus ≠ .active, .sourceNotActive),
     (source.approvalStatus ≠ .approved, .sourceNotApproved),
     (external && !externalMethods.contains source.acquisitionMethod,
       .externalAcquisitionNotConfigured),
     (external && !source.automatedAccessAllowed, .automatedAccessNotAuthorized),
     (external && missing, .approvedAllowlistEntryMissing),
     (external && !missing && authorization.any (·.acquisitionMethod ≠ source.acquisitionMethod),
       .allowlistMethodMismatch),
     (external && source.sourceType = .oraclePublicDocumentation && !oracleEnabled,
       PermissionReason.oracleAutomatedAcquisitionDisabled)]

/-- A row of the tenant, or one for all tenants. -/
def visibleTo (tenantId : Uuid) (owner : Option Uuid) : Bool := owner = some tenantId || owner = none

/-- `KnowledgeSourceRepository.get`. -/
def Store.source (store : Store) (tenantId sourceId : Uuid) : Option Source :=
  store.sources.find? fun s => s.sourceId = sourceId && visibleTo tenantId s.tenantId

/-- `IngestionRepository.manifest`. -/
def Store.manifest (store : Store) (tenantId entryId : Uuid) : Option ManifestEntry :=
  store.manifests.find? fun m => m.manifestEntryId = entryId && visibleTo tenantId m.tenantId

/-- `ORDER BY decided_at DESC`. -/
def laterDecision (a b : SourceAuthorization) : Prop := b.decidedAt ≤ a.decidedAt

instance : DecidableRel laterDecision := fun a b => inferInstanceAs (Decidable (b.decidedAt ≤ a.decidedAt))

/-- `effective_authorization`. -/
def Store.effectiveAuthorization (store : Store) (now : Instant) (tenantId : Uuid)
    (source : Source) : Option SourceAuthorization :=
  ((store.authorizations.filter fun a =>
      a.sourceId = source.sourceId && a.sourceRowVersion = source.rowVersion &&
        visibleTo tenantId a.tenantId && a.validFrom ≤ now &&
        !a.validTo.any (· ≤ now)).insertionSort laterDecision).head?

end Helpdesk.Knowledge
