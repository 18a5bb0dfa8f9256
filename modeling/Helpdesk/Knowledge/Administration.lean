/-
  File:      Helpdesk/Knowledge/Administration.lean
  Subject:   The administration of knowledge sources (apps/api/app/knowledge: create,
             update, approve, refresh_lifecycle and authorize_acquisition of
             service.py, with their statements in repository.py).

  Each definition is one transaction; `none` is a command that is refused or that
  only repeats the answer of an earlier one.
-/
import Helpdesk.Knowledge.World

namespace Helpdesk.Knowledge

open Helpdesk.Python

/-! ## 1. Commands -/

/-- The permissions that the service asks for. -/
inductive SourcePermission where
  | create | update | approve | acquisitionPermissionManage | manageGlobal
  deriving DecidableEq, Repr

structure Administrator extends Actor where
  permissions : List SourcePermission
  deriving DecidableEq, Repr

def Administrator.may (actor : Administrator) (permission : SourcePermission) : Bool :=
  actor.permissions.contains permission

/-- `SourceDefinition`. -/
structure SourceDefinition where
  code : String
  sourceType : SourceType
  acquisitionMethod : AcquisitionMethod
  status : SourceStatus
  ownerUserId : Option Uuid
  ownerGroupId : Option Uuid
  require_owner : ownerUserId.isSome ∨ ownerGroupId.isSome

inductive RefreshAction where
  | markRefreshDue | markCurrent | markStale
  deriving DecidableEq, Repr

structure RefreshLifecycleCommand where
  action : RefreshAction
  expectedVersion : Nat
  refreshDueAt : Option Instant
  validate_due_date : refreshDueAt.isSome → action = .markRefreshDue

structure AcquisitionAuthorizationCommand where
  approved : Bool
  acquisitionMethod : AcquisitionMethod
  expectedVersion : Nat
  validFrom : Option Instant
  validTo : Option Instant
  external : acquisitionMethod ∈ externalMethods

/-! ## 2. Transactions -/

/-- `KnowledgeSourceRepository.create`; the identifier is a new one. -/
def createSource (actor : Administrator) (sourceId : Uuid) (scope : Option Uuid)
    (definition : SourceDefinition) (store : Store) : Option Store :=
  if !actor.may .create || (scope = none && !actor.may .manageGlobal) ||
      store.sources.any (fun s => s.sourceId = sourceId ||
        (s.tenantId = scope && s.sourceCode = definition.code)) then none
  else some { store with
    sources := store.sources ++
      [{ sourceId
         tenantId := scope
         sourceCode := definition.code
         sourceType := definition.sourceType
         acquisitionMethod := definition.acquisitionMethod
         automatedAccessAllowed := false
         sourceStatus := definition.status
         approvalStatus := .draft
         ownerUserId := definition.ownerUserId
         ownerGroupId := definition.ownerGroupId
         rowVersion := 1
         refreshState := .current
         refreshDueAt := none }] }

/-- The source of a command, which only those who manage global sources may give for one
    of all tenants. -/
def Store.administered (store : Store) (actor : Administrator) (permission : SourcePermission)
    (sourceId : Uuid) : Option Source := do
  let source ← store.source actor.tenantId sourceId
  if actor.may permission && (source.tenantId.isSome || actor.may .manageGlobal) then some source
  else none

/-- `UPDATE kb.source ... WHERE source_id=:source_id AND (tenant_id=:tenant_id OR tenant_id
    IS NULL) AND row_version=:expected_version AND ...`, which must write a row. -/
def Store.updateSource (store : Store) (tenantId sourceId : Uuid) (expectedVersion : Nat)
    (selected : Source → Bool) (change : Source → Source) : Option Store :=
  let matching := fun (s : Source) => s.sourceId = sourceId && visibleTo tenantId s.tenantId &&
    s.rowVersion = expectedVersion && selected s
  if store.sources.any matching then
    some { store with sources := store.sources.map fun s => if matching s then change s else s }
  else none

/-- The row that `update` writes: the approval and the access are taken back. -/
def redefinedSource (definition : SourceDefinition) (source : Source) : Source :=
  { source with
    sourceCode := definition.code
    sourceType := definition.sourceType
    acquisitionMethod := definition.acquisitionMethod
    sourceStatus := definition.status
    ownerUserId := definition.ownerUserId
    ownerGroupId := definition.ownerGroupId
    approvalStatus := .draft
    automatedAccessAllowed := false
    rowVersion := source.rowVersion + 1 }

/-- `update`. -/
def updateDefinition (actor : Administrator) (sourceId : Uuid) (definition : SourceDefinition)
    (expectedVersion : Nat) (store : Store) : Option Store := do
  let source ← store.administered actor .update sourceId
  if store.sources.any fun s => s.sourceId ≠ sourceId && s.tenantId = source.tenantId &&
      s.sourceCode = definition.code then none
  else
    store.updateSource actor.tenantId sourceId expectedVersion (fun _ => true)
      (redefinedSource definition)

/-- The row that `decide_approval` writes. -/
def decidedSource (approved : Bool) (source : Source) : Source :=
  { source with
    approvalStatus := if approved then .approved else .rejected
    automatedAccessAllowed := false
    rowVersion := source.rowVersion + 1 }

/-- `approve`. -/
def decideApproval (actor : Administrator) (sourceId : Uuid) (approved : Bool)
    (expectedVersion : Nat) (store : Store) : Option Store := do
  let source ← store.administered actor .approve sourceId
  if source.ownedBy actor.toActor then none
  else
    store.updateSource actor.tenantId sourceId expectedVersion
      (fun s => [SourceApproval.draft, .underReview, .rejected].contains s.approvalStatus)
      (decidedSource approved)

/-- `_REFRESH_TRANSITIONS`: the state an action leads to, and from which. -/
def refreshTransitions : RefreshAction → RefreshState × List RefreshState
  | .markRefreshDue => (.refreshDue, [.current, .stale])
  | .markCurrent => (.current, [.refreshDue, .stale])
  | .markStale => (.stale, [.current, .refreshDue])

/-- The row that `set_refresh_state` writes. -/
def markedSource (now : Instant) (command : RefreshLifecycleCommand) (source : Source) : Source :=
  { source with
    refreshState := (refreshTransitions command.action).1
    refreshDueAt := match command.action with
      | .markRefreshDue => some (command.refreshDueAt.getD now)
      | .markCurrent => none
      | .markStale => source.refreshDueAt
    rowVersion := source.rowVersion + 1 }

/-- `refresh_lifecycle`. -/
def refreshLifecycle (now : Instant) (actor : Administrator) (sourceId : Uuid)
    (command : RefreshLifecycleCommand) (store : Store) : Option Store := do
  let source ← store.administered actor .update sourceId
  if source.sourceStatus = .retired then none
  else if source.refreshState ∉ (refreshTransitions command.action).2 then none
  else
    store.updateSource actor.tenantId sourceId command.expectedVersion
      (fun s => s.sourceStatus ≠ .retired && s.refreshState = source.refreshState)
      (markedSource now command)

/-- The row of `kb.source` that `authorize_acquisition` writes. -/
def authorizedSource (approved : Bool) (source : Source) : Source :=
  { source with automatedAccessAllowed := approved, rowVersion := source.rowVersion + 1 }

/-- `authorize_acquisition`: the authorization is for the version that it makes. -/
def authorizeAcquisition (now : Instant) (actor : Administrator) (sourceId authorizationId : Uuid)
    (command : AcquisitionAuthorizationCommand) (store : Store) : Option Store := do
  let source ← store.administered actor .acquisitionPermissionManage sourceId
  let validFrom := command.validFrom.getD now
  if source.rowVersion ≠ command.expectedVersion then none
  else if command.acquisitionMethod ≠ source.acquisitionMethod then none
  else if command.validTo.any (· ≤ validFrom) then none
  else do
    let store ← store.updateSource actor.tenantId sourceId source.rowVersion
      (fun s => !command.approved || (s.sourceStatus = .active && s.approvalStatus = .approved &&
        s.acquisitionMethod = command.acquisitionMethod))
      (authorizedSource command.approved)
    return { store with
      authorizations := store.authorizations ++
        [{ authorizationId
           tenantId := source.tenantId
           sourceId
           sourceRowVersion := source.rowVersion + 1
           approved := command.approved
           acquisitionMethod := command.acquisitionMethod
           validFrom
           validTo := command.validTo
           decidedAt := now }] }

/-! ## 3. Administration while ingestion goes on -/

inductive SourceAction where
  | create (actor : Administrator) (sourceId : Uuid) (scope : Option Uuid)
      (definition : SourceDefinition)
  | update (actor : Administrator) (sourceId : Uuid) (definition : SourceDefinition)
      (expectedVersion : Nat)
  | approve (actor : Administrator) (sourceId : Uuid) (approved : Bool) (expectedVersion : Nat)
  | authorize (now : Instant) (actor : Administrator) (sourceId authorizationId : Uuid)
      (command : AcquisitionAuthorizationCommand)
  | refreshLifecycle (now : Instant) (actor : Administrator) (sourceId : Uuid)
      (command : RefreshLifecycleCommand)
  /-- anything but `govern`, for which the commands above stand -/
  | world (action : Action)

def administer (action : SourceAction) (store : Store) : Option Store :=
  match action with
  | .create actor sourceId scope definition => createSource actor sourceId scope definition store
  | .update actor sourceId definition expectedVersion =>
      updateDefinition actor sourceId definition expectedVersion store
  | .approve actor sourceId approved expectedVersion =>
      decideApproval actor sourceId approved expectedVersion store
  | .authorize now actor sourceId authorizationId command =>
      authorizeAcquisition now actor sourceId authorizationId command store
  | .refreshLifecycle now actor sourceId command => refreshLifecycle now actor sourceId command store
  | .world _ => none

def World.govern (d : Deployment) (world : World) (action : SourceAction) : Option World :=
  match action with
  | .world (.govern _ _) => none
  | .world action => world.next d action
  | action => (administer action world.store).map fun store => { world with store }

def GovernedStep (d : Deployment) (world : World) (action : SourceAction) (world' : World) : Prop :=
  world.govern d action = some world'

end Helpdesk.Knowledge
