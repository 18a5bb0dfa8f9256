/-
  File:      Helpdesk/Tickets/Database.lean
  Subject:   The tables behind the ticket services, and what every service does first.

  A desk holds the tickets with their comments, the outbox, the idempotency
  records, the approvals and the copilot's drafts. The configuration (workflows,
  approval definitions, users) is read and never written; what the database
  guarantees of it (`UNIQUE (workflow_version_id, status_code)`, the primary key
  of a status) is part of its type.

  A service is a transaction on the desk: an exception leaves the desk as it was.
  The rows of `ticket_event` and `audit_event` are left out: no modelled function
  reads them.
-/
import Helpdesk.Core.Outbox
import Helpdesk.Core.Rules
import Helpdesk.Lib.Fallible
import Helpdesk.Python.JsonText
import Helpdesk.Python.Text
import Helpdesk.Sla.Repository

namespace Helpdesk.Tickets

open Helpdesk.Python Helpdesk.Core

/-! ## 1. Errors and callers -/

/-- The exceptions of `core/exceptions.py` that the services raise, and the errors
    nobody catches. -/
inductive AppError where
  | authorization (detail : String)
  | notFound (detail : String)
  | validation (detail : String) (fieldErrors : List (String × List String))
  | conflict (errorCode detail : String)
  | concurrency (detail : String)
  | invalidTransition (detail : String)
  /-- a `ValueError` -/
  | value (message : String)
  /-- a `TypeError` -/
  | type
  /-- an `AttributeError` -/
  | attribute
  /-- a violated constraint of the database -/
  | constraint (name : String)
  deriving DecidableEq, Repr

def idempotencyConflict : AppError :=
  .conflict "idempotency_key_conflict"
    "The idempotency key was already used for a different request."

inductive Permission where
  | ticketAnalystRead | ticketReadAll | ticketCommentPublic | ticketCommentInternal
  | ticketTransition | approvalDecide | aiAnalystUse | ticketRoute | ticketReadOwn
  | knowledgeSourceUpdate
  deriving DecidableEq, Repr

structure RequestContext where
  tenantId : Option Uuid
  userId : Option Uuid
  supportGroupIds : List Uuid
  correlationId : String
  requestId : String
  /-- what `AuthorizationService.is_allowed` answers for this caller -/
  isAllowed : Permission → Bool

/-! ## 2. Configuration -/

abbrev WorkflowStatus := Sla.WorkflowStatus
abbrev VersionStatus := Sla.VersionStatus

structure WorkflowVersion where
  workflowVersionId : Uuid
  versionStatus : VersionStatus
  deriving DecidableEq, Repr

structure WorkflowTransitionRow where
  transitionId : Uuid
  workflowVersionId : Uuid
  transitionCode : String
  fromStatusId : Uuid
  toStatusId : Uuid
  condition : Json
  validators : Json
  actions : Json
  activeFlag : Bool

/-- A row of `approval_definition` joined with one of its versions. -/
structure ApprovalDefinitionRow where
  definitionId : Uuid
  versionId : Uuid
  tenantId : Uuid
  projectId : Uuid
  code : String
  activeFlag : Bool
  versionNumber : Int
  versionStatus : VersionStatus
  effectiveFrom : Option Instant
  effectiveTo : Option Instant
  mode : String
  approverRule : Json
  approvedTransitionId : Option Uuid
  rejectedTransitionId : Option Uuid
  allowRequesterSelfApproval : Bool
  expiresAfterMinutes : Option Nat

structure AppUser where
  userId : Uuid
  tenantId : Uuid
  activeFlag : Bool
  managerUserId : Option Uuid
  deriving DecidableEq, Repr

structure DeskConfig where
  workflowVersions : List WorkflowVersion
  statuses : List WorkflowStatus
  transitions : List WorkflowTransitionRow
  approvalDefinitions : List ApprovalDefinitionRow
  users : List AppUser
  resolutionCodes : List String
  /-- the primary key of a status -/
  statusId_key : ∀ s ∈ statuses, ∀ s' ∈ statuses, s.statusId = s'.statusId → s = s'
  /-- `UNIQUE (workflow_version_id, status_code)` -/
  statusCode_key : ∀ s ∈ statuses, ∀ s' ∈ statuses,
    s.workflowVersionId = s'.workflowVersionId → s.statusCode = s'.statusCode → s = s'

/-! ## 3. Rows -/

structure Ticket where
  ticketId : Uuid
  tenantId : Uuid
  ticketKey : String
  projectId : Uuid
  workTypeCode : String
  workflowVersionId : Uuid
  statusId : Uuid
  rowVersion : Nat
  summary : String
  description : Option String
  reporterUserId : Uuid
  requestedForUserId : Option Uuid
  serviceNodeId : Option Uuid
  priorityCode : String
  assignmentGroupId : Option Uuid
  assigneeUserId : Option Uuid
  resolutionCode : Option String
  resolutionSummary : Option String
  firstResponseAt : Option Instant
  resolvedAt : Option Instant
  closedAt : Option Instant
  createdAt : Instant

/-- The columns the SLA engine reads of a ticket. -/
def Ticket.slaRow (ticket : Ticket) : Sla.TicketRow where
  ticketId := ticket.ticketId
  tenantId := ticket.tenantId
  projectId := ticket.projectId
  serviceNodeId := ticket.serviceNodeId
  workTypeCode := ticket.workTypeCode
  priorityCode := ticket.priorityCode
  statusId := ticket.statusId
  workflowVersionId := ticket.workflowVersionId
  createdAt := ticket.createdAt
  firstResponseAt := ticket.firstResponseAt
  resolvedAt := ticket.resolvedAt

inductive Visibility where
  | publicComment | internalComment
  deriving DecidableEq, Repr

def Visibility.text : Visibility → String
  | .publicComment => "PUBLIC"
  | .internalComment => "INTERNAL"

structure TicketComment where
  commentId : Uuid
  ticketId : Uuid
  authorUserId : Uuid
  visibility : Visibility
  body : String
  sourceChannel : String
  createdAt : Instant
  deriving DecidableEq, Repr

/-- A row of `idempotency_record`; `resultResourceId` is set when it is completed. -/
structure IdempotencyRecord where
  tenantId : Uuid
  operationCode : String
  idempotencyKey : String
  principalId : Uuid
  requestHash : String
  resultResourceId : Option Uuid
  deriving DecidableEq, Repr

inductive ApprovalStatus where
  | pending | approved | rejected | cancelled | expired
  deriving DecidableEq, Repr

structure TicketApproval where
  approvalId : Uuid
  tenantId : Uuid
  ticketId : Uuid
  definitionId : Uuid
  versionId : Uuid
  status : ApprovalStatus
  requestedAt : Instant
  completedAt : Option Instant
  expiresAt : Option Instant
  rowVersion : Nat
  deriving DecidableEq, Repr

inductive Decision where
  | approved | rejected
  deriving DecidableEq, Repr

def Decision.text : Decision → String
  | approved => "APPROVED"
  | rejected => "REJECTED"

def Decision.status : Decision → ApprovalStatus
  | approved => .approved
  | rejected => .rejected

structure TicketApprover where
  approvalId : Uuid
  approverUserId : Uuid
  sequenceNumber : Nat
  tenantId : Uuid
  decision : Option Decision
  deriving DecidableEq, Repr

structure DraftClaim where
  text : String
  citationIds : List String
  supported : Bool
  deriving DecidableEq, Repr

/-- A copilot draft with the columns of its conversation it is looked up by. -/
structure StoredDraft where
  draftId : Uuid
  tenantId : Uuid
  userId : Uuid
  ticketId : Uuid
  kind : String
  claims : List DraftClaim
  citationLabels : List (String × String)
  deriving DecidableEq, Repr

structure DraftAction where
  draftId : Uuid
  action : String
  resourceType : String
  resourceId : Uuid
  analystEdited : Bool
  deriving DecidableEq, Repr

structure Desk where
  config : DeskConfig
  tickets : List Ticket
  comments : List TicketComment
  outbox : List OutboxEvent
  idempotency : List IdempotencyRecord
  approvals : List TicketApproval
  approvers : List TicketApprover
  drafts : List StoredDraft
  draftActions : List DraftAction
  /-- the supply that stands for `gen_random_uuid()` -/
  nextId : Uuid

abbrev DeskTransaction := Transaction Desk AppError

/-! ## 4. What every service does -/

/-- `_identity`, with the error of the service. -/
def identity (context : RequestContext) (error : AppError) : Except AppError (Uuid × Uuid) :=
  match context.tenantId, context.userId with
  | some tenantId, some userId => .ok (tenantId, userId)
  | _, _ => .error error

def authorize (context : RequestContext) (permission : Permission) (detail : String) :
    Except AppError Unit :=
  if context.isAllowed permission then .ok () else .error (.authorization detail)

/-- `gen_random_uuid()`. -/
def newId : DeskTransaction Uuid := do
  let desk ← get
  set { desk with nextId := desk.nextId + 1 }
  return desk.nextId

/-- An event as a producer inserts it. -/
def newEvent (outboxEventId : Uuid) (now : Instant) (tenantId : Uuid)
    (aggregateType : String) (aggregateId : Uuid) (eventType : String)
    (payload : List (String × Json)) (deduplicationKey : Option DeduplicationKey) :
    OutboxEvent where
  outboxEventId := outboxEventId
  tenantId := some tenantId
  aggregateType := aggregateType
  aggregateId := uuidText aggregateId
  eventType := eventType
  payload := payload
  availableAt := now
  createdAt := now
  deduplicationKey := deduplicationKey

/-- `INSERT INTO integration.outbox_event ... ON CONFLICT DO NOTHING`. -/
def emitOrIgnore (now : Instant) (tenantId : Uuid) (aggregateType : String) (aggregateId : Uuid)
    (eventType : String) (payload : List (String × Json)) (key : DeduplicationKey) :
    DeskTransaction Unit := do
  let id ← newId
  let event := newEvent id now tenantId aggregateType aggregateId eventType payload (some key)
  modify fun desk => { desk with outbox := OutboxEvent.insertOrIgnore desk.outbox event }

/-- `INSERT INTO integration.outbox_event ...`. -/
def emit (now : Instant) (tenantId : Uuid) (aggregateType : String) (aggregateId : Uuid)
    (eventType : String) (payload : List (String × Json)) (key : Option DeduplicationKey) :
    DeskTransaction Unit := do
  let id ← newId
  let desk ← get
  let event := newEvent id now tenantId aggregateType aggregateId eventType payload key
  if OutboxEvent.conflicts desk.outbox event then
    throw (.constraint "outbox_deduplication_ux")
  set { desk with outbox := desk.outbox ++ [event] }

/-- The unique key of `idempotency_record`. -/
def IdempotencyRecord.isFor (tenantId : Uuid) (operationCode key : String)
    (record : IdempotencyRecord) : Bool :=
  record.tenantId = tenantId && record.operationCode = operationCode && record.idempotencyKey = key

/-- `claim_idempotency`: the record of the key, inserted when there was none. -/
def claimIdempotency (tenantId userId : Uuid) (key requestHash operationCode : String) :
    DeskTransaction IdempotencyRecord := do
  let desk ← get
  match desk.idempotency.find? (IdempotencyRecord.isFor tenantId operationCode key) with
  | some record => return record
  | none =>
      let record : IdempotencyRecord :=
        ⟨tenantId, operationCode, key, userId, requestHash, none⟩
      set { desk with idempotency := desk.idempotency ++ [record] }
      return record

/-- The check that follows the claim in every service. -/
def checkIdempotency (record : IdempotencyRecord) (userId : Uuid) (requestHash : String) :
    Except AppError Unit :=
  if record.requestHash ≠ requestHash ∨ record.principalId ≠ userId then
    .error idempotencyConflict
  else .ok ()

/-- `complete_idempotency`. -/
def completeIdempotency (record : IdempotencyRecord) (resourceId : Uuid) : DeskTransaction Unit :=
  modify fun desk => { desk with
    idempotency := desk.idempotency.map fun r =>
      if r.isFor record.tenantId record.operationCode record.idempotencyKey then
        { r with resultResourceId := some resourceId }
      else r }

/-- A ticket an analyst may see: unassigned, or of one of the caller's groups. -/
def Ticket.visibleTo (context : RequestContext) (ticket : Ticket) : Bool :=
  context.isAllowed .ticketReadAll || ticket.assignmentGroupId.all context.supportGroupIds.contains

/-- `analyst_ticket` of the tickets repository and `ticket` of the workflow repository. -/
def Desk.analystTicket (desk : Desk) (context : RequestContext) (tenantId : Uuid)
    (ticketKey : String) : Option Ticket :=
  desk.tickets.find? fun t =>
    t.tenantId = tenantId && t.ticketKey = ticketKey && t.visibleTo context

/-- `ticket` of the tickets repository: the caller reported it or it is for them. -/
def Desk.ownTicket (desk : Desk) (tenantId userId : Uuid) (ticketKey : String) : Option Ticket :=
  desk.tickets.find? fun t =>
    t.tenantId = tenantId && t.ticketKey = ticketKey &&
      (t.reporterUserId = userId || t.requestedForUserId = some userId)

end Helpdesk.Tickets
