/-
  File:      Helpdesk/Workflow/Approvals.lean
  Subject:   Approval requests, decisions and the transition a decided approval
             takes (apps/api/app/approvals).

  `request` runs inside the transaction of the workflow transition that asks for
  the approval; `decide` is a transaction of its own. An approval found to be due
  is marked expired and the marking is committed before the error is raised, so
  `decide` ends in an outcome and not in that error.
-/
import Helpdesk.Tickets.Database

namespace Helpdesk.Workflow

open Helpdesk.Python Helpdesk.Core Helpdesk.Tickets Json

/-- `ApprovalConfigurationError`. -/
def approvalConfiguration (detail : String) : AppError :=
  .conflict "approval_configuration_conflict" detail

/-! ## 1. Requests -/

/-- `published_definition`: the effective version with the highest number. -/
def publishedDefinition (config : DeskConfig) (now : Instant) (tenantId projectId : Uuid)
    (approvalCode : String) : Option ApprovalDefinitionRow :=
  let rows := config.approvalDefinitions.filter fun row =>
    row.tenantId = tenantId && row.projectId = projectId && row.code = approvalCode &&
      row.activeFlag && row.versionStatus = .published &&
      Sla.effective row.effectiveFrom row.effectiveTo now
  (rows.insertionSort fun a b => b.versionNumber ≤ a.versionNumber).head?

/-- One entry of `user_ids`, read by `UUID(value)`; what is neither a text nor null
    has no `replace`. -/
def approverId : Json → Except AppError Uuid
  | .str text =>
      match uuid? text with
      | some id => .ok id
      | none => .error (approvalConfiguration "The approver rule contains an invalid user ID.")
  | .null => .error (approvalConfiguration "The approver rule contains an invalid user ID.")
  | _ => .error .attribute

def requester (ticket : Ticket) : Uuid := ticket.requestedForUserId.getD ticket.reporterUserId

/-- `_resolve`. -/
def resolve (config : DeskConfig) (ticket : Ticket) (definition : ApprovalDefinitionRow) :
    Except AppError (List Uuid) :=
  match definition.approverRule with
  | .dict rule =>
      let only (keys : List String) : Bool := rule.all fun item => keys.contains item.1
      if definition.mode = "ANY_ONE_APPROVER" ∨ definition.mode = "ALL_APPROVERS" then
        if ¬ only ["user_ids", "rejection_comment_required"] then
          .error (approvalConfiguration "The approver rule contains unsupported keys.")
        else match getD rule "user_ids" with
        | .list (first :: rest) => do
            let requested := (← (first :: rest).mapM approverId).eraseDups
            let active (id : Uuid) : Bool := config.users.any fun user =>
              user.tenantId = ticket.tenantId && user.activeFlag && user.userId = id
            if ¬ requested.all active then
              throw (approvalConfiguration
                "Every configured approver must be active in the tenant.")
            return requested
        | _ => .error (approvalConfiguration "The approver rule must contain user_ids.")
      else if definition.mode = "MANAGER_APPROVAL" then
        if ¬ only ["subject", "rejection_comment_required"] then
          .error (approvalConfiguration "The manager rule contains unsupported keys.")
        else if ¬ pyEq ((lookup "subject" rule).getD (.str "REQUESTED_FOR_OR_REPORTER"))
            (.str "REQUESTED_FOR_OR_REPORTER") then
          .error (approvalConfiguration "The manager approval subject is unsupported.")
        else
          let inTenant (id : Uuid) : Option AppUser := config.users.find? fun user =>
            user.userId = id && user.tenantId = ticket.tenantId && user.activeFlag
          match ((inTenant (requester ticket)).bind (·.managerUserId)).bind inTenant with
          | some manager => .ok [manager.userId]
          | none => .error (approvalConfiguration "The approval subject has no active manager.")
      else .error (approvalConfiguration "The published approval mode is not supported.")
  | _ => .error (approvalConfiguration "Approver rule must be an object.")

/-- `_record_fact`; the key takes the payload's row version, or 1. -/
def recordFact (now : Instant) (tenantId approvalId : Uuid) (eventType : String)
    (payload : List (String × Json)) (rowVersion : Nat) : DeskTransaction Unit :=
  emitOrIgnore now tenantId "APPROVAL" approvalId eventType payload
    (.approvalFact eventType approvalId rowVersion)

/-- `ApprovalRepository.create`. -/
def createApproval (now : Instant) (ticket : Ticket) (definition : ApprovalDefinitionRow)
    (approverIds : List Uuid) : DeskTransaction Unit := do
  let approvalId ← newId
  let desk ← get
  if desk.approvals.any fun a => a.ticketId = ticket.ticketId &&
      a.definitionId = definition.definitionId && a.status = .pending then
    throw (.constraint "ticket_approval_pending_definition_ux")
  let approval : TicketApproval :=
    { approvalId := approvalId
      tenantId := ticket.tenantId
      ticketId := ticket.ticketId
      definitionId := definition.definitionId
      versionId := definition.versionId
      status := .pending
      requestedAt := now
      completedAt := none
      expiresAt := definition.expiresAfterMinutes.map fun minutes => now + minutes * 60 * second
      rowVersion := 1 }
  let approvers := (approverIds.zipIdx 1).map fun entry =>
    (⟨approvalId, entry.1, entry.2, ticket.tenantId, none⟩ : TicketApprover)
  set { desk with
    approvals := desk.approvals ++ [approval]
    approvers := desk.approvers ++ approvers }
  recordFact now ticket.tenantId approvalId "APPROVAL_REQUESTED"
    [("approval_id", .str (uuidText approvalId)),
     ("ticket_id", .str (uuidText ticket.ticketId)),
     ("ticket_key", .str ticket.ticketKey),
     ("approval_code", .str definition.code),
     ("approval_definition_version_id", .str (uuidText definition.versionId)),
     ("approval_mode", .str definition.mode),
     ("approver_user_ids", .list (approverIds.map fun id => .str (uuidText id)))] 1

/-- `ApprovalEngine.request`. -/
def request (now : Instant) (tenantId ticketId : Uuid) (approvalCode : String) :
    DeskTransaction Unit := do
  let desk ← get
  let some ticket := desk.tickets.find? fun t => t.tenantId = tenantId && t.ticketId = ticketId
    | throw (approvalConfiguration "Approval ticket was not found.")
  let some definition := publishedDefinition desk.config now tenantId ticket.projectId approvalCode
    | throw (approvalConfiguration
        "No effective published approval definition matches the workflow action.")
  let approvers ← resolve desk.config ticket definition
  if ¬ definition.allowRequesterSelfApproval ∧ requester ticket ∈ approvers then
    throw (approvalConfiguration
      "The approval definition resolves the requester as an approver.")
  createApproval now ticket definition approvers

/-! ## 2. The transition of a decided approval -/

structure LockedApproval where
  approvalId : Uuid
  tenantId : Uuid
  ticketId : Uuid
  ticketKey : String
  requesterUserId : Uuid
  status : ApprovalStatus
  rowVersion : Nat
  mode : String
  approverRule : Json
  approvedTransitionId : Option Uuid
  rejectedTransitionId : Option Uuid
  allowRequesterSelfApproval : Bool
  expiresAt : Option Instant
  existingDecision : Option Decision

/-- `action_json @> '[{"type":"APPROVAL_CONTINUATION"}]'`. -/
def containsContinuation : Json → Bool
  | .list actions => actions.any fun action =>
      match action with
      | .dict items =>
          match lookup "type" items with
          | some (.str name) => name = "APPROVAL_CONTINUATION"
          | _ => false
      | _ => false
  | _ => false

/-- `UPDATE itsm.ticket` of one row: the trigger raises the row version, and
    refuses a status of another workflow version. -/
def updateTicket (ticketId : Uuid) (change : Ticket → Ticket) : DeskTransaction Unit := do
  let desk ← get
  let update (t : Ticket) : Ticket :=
    if t.ticketId = ticketId then { change t with rowVersion := t.rowVersion + 1 } else t
  let tickets := desk.tickets.map update
  if ¬ tickets.all fun t => desk.config.statuses.any fun s =>
      s.statusId = t.statusId && s.workflowVersionId = t.workflowVersionId then
    throw (.constraint "ticket_validate_workflow_status")
  set { desk with tickets := tickets }

/-- The rows the `UPDATE` of `continue_workflow` joins. -/
def continuation (desk : Desk) (approval : LockedApproval) (transitionId : Uuid) :
    Option (Ticket × WorkflowTransitionRow) := do
  let ticket ← desk.tickets.find? fun t =>
    t.ticketId = approval.ticketId && t.tenantId = approval.tenantId
  let transition ← desk.config.transitions.find? fun row =>
    row.transitionId = transitionId && row.workflowVersionId = ticket.workflowVersionId &&
      row.fromStatusId = ticket.statusId && row.activeFlag && containsContinuation row.actions
  return (ticket, transition)

/-- The payload `continue_workflow` writes. -/
def continuationPayload (approval : LockedApproval) (transition : WorkflowTransitionRow)
    (rowVersion : Nat) (correlationId requestId : String) : List (String × Json) :=
  [("ticket_key", .str approval.ticketKey),
   ("approval_id", .str (uuidText approval.approvalId)),
   ("transition_id", .str (uuidText transition.transitionId)),
   ("transition_code", .str transition.transitionCode),
   ("from_status_id", .str (uuidText transition.fromStatusId)),
   ("to_status_id", .str (uuidText transition.toStatusId)),
   ("row_version", .int rowVersion),
   ("correlation_id", .str correlationId),
   ("request_id", .str requestId)]

/-- `continue_workflow`; the caller turns its `RuntimeError` into a configuration
    error, which is raised here. -/
def continueWorkflow (now : Instant) (context : RequestContext) (approval : LockedApproval)
    (transitionId : Uuid) : DeskTransaction Unit := do
  match continuation (← get) approval transitionId with
  | none =>
      throw (approvalConfiguration
        "Approval continuation transition is invalid for the ticket state.")
  | some (ticket, transition) =>
      updateTicket ticket.ticketId fun t => { t with statusId := transition.toStatusId }
      emit now approval.tenantId "TICKET" approval.ticketId "TICKET_WORKFLOW_TRANSITIONED"
        (continuationPayload approval transition (ticket.rowVersion + 1) context.correlationId
          context.requestId)
        (some (.approvalWorkflow approval.approvalId))

/-! ## 3. Decisions -/

structure ApprovalDecisionCommand where
  decision : Decision
  expectedVersion : Nat
  comment : Option String

/-- `lock_for_decision`. -/
def lockForDecision (desk : Desk) (tenantId approvalId userId : Uuid) : Option LockedApproval := do
  let approval ← desk.approvals.find? fun a => a.tenantId = tenantId && a.approvalId = approvalId
  let approver ← desk.approvers.find? fun a =>
    a.approvalId = approval.approvalId && a.approverUserId = userId
  let ticket ← desk.tickets.find? fun t => t.ticketId = approval.ticketId
  let definition ← desk.config.approvalDefinitions.find? fun d => d.versionId = approval.versionId
  return {
    approvalId := approval.approvalId
    tenantId := approval.tenantId
    ticketId := approval.ticketId
    ticketKey := ticket.ticketKey
    requesterUserId := requester ticket
    status := approval.status
    rowVersion := approval.rowVersion
    mode := definition.mode
    approverRule := definition.approverRule
    approvedTransitionId := definition.approvedTransitionId
    rejectedTransitionId := definition.rejectedTransitionId
    allowRequesterSelfApproval := definition.allowRequesterSelfApproval
    expiresAt := approval.expiresAt
    existingDecision := approver.decision }

/-- `_terminal_status`. -/
def terminalStatus (mode : String) (total approved rejected : Nat) :
    Except AppError (Option Decision) :=
  if mode = "ANY_ONE_APPROVER" ∨ mode = "MANAGER_APPROVAL" then
    if approved ≠ 0 then .ok (some .approved)
    else .ok (if rejected = total then some .rejected else none)
  else if mode = "ALL_APPROVERS" then
    if rejected ≠ 0 then .ok (some .rejected)
    else .ok (if approved = total then some .approved else none)
  else .error (approvalConfiguration "The approval mode is not supported.")

/-- An approval row changed by one statement. -/
def putApproval (approvalId : Uuid) (change : TicketApproval → TicketApproval) (desk : Desk) :
    Desk :=
  { desk with
    approvals := desk.approvals.map fun a =>
      if a.approvalId = approvalId then { change a with rowVersion := a.rowVersion + 1 } else a }

/-- `expire_if_due`. -/
def expireIfDue (now : Instant) (approval : LockedApproval) : DeskTransaction Bool := do
  if approval.expiresAt.all (now < ·) ∨ approval.status ≠ .pending then
    return false
  modify (putApproval approval.approvalId fun a =>
    { a with status := .expired, completedAt := some now })
  recordFact now approval.tenantId approval.approvalId "APPROVAL_EXPIRED"
    [("approval_id", .str (uuidText approval.approvalId))] 1
  return true

/-- `record_decision`. -/
def recordDecision (now : Instant) (approval : LockedApproval) (userId : Uuid)
    (decision : Decision) (comment : Option String) (terminal : Option Decision) :
    DeskTransaction Nat := do
  modify fun desk => { desk with
    approvers := desk.approvers.map fun a =>
      if a.approvalId = approval.approvalId ∧ a.approverUserId = userId ∧ a.decision = none then
        { a with decision := some decision }
      else a }
  modify (putApproval approval.approvalId fun a =>
    match terminal with
    | some terminal => { a with status := terminal.status, completedAt := some now }
    | none => a)
  let rowVersion := approval.rowVersion + 1
  recordFact now approval.tenantId approval.approvalId "APPROVAL_DECIDED"
    [("approval_id", .str (uuidText approval.approvalId)),
     ("ticket_id", .str (uuidText approval.ticketId)),
     ("ticket_key", .str approval.ticketKey),
     ("approver_user_id", .str (uuidText userId)),
     ("decision", .str decision.text),
     ("approval_status", .str ((terminal.map Decision.text).getD "PENDING")),
     ("comment_present", .bool comment.isSome),
     ("row_version", .int rowVersion)] rowVersion
  return rowVersion

inductive DecisionOutcome where
  | decided (rowVersion : Nat)
  | replayed
  /-- the approval was marked expired; the caller gets `ConflictError` -/
  | expired
  deriving DecidableEq, Repr

/-- A comment of white space counts as none. -/
def normalizedComment (comment : Option String) : Option String :=
  (comment.map stripText).filter (· ≠ "")

/-- The transition the approval's definition names for an outcome. -/
def LockedApproval.transitionFor (approval : LockedApproval) : Decision → Option Uuid
  | .approved => approval.approvedTransitionId
  | .rejected => approval.rejectedTransitionId

section Decide

variable (sha256 : String → String)

/-- The end of `decide`, once the decision is known to be admissible. -/
def applyDecision (now : Instant) (context : RequestContext) (approval : LockedApproval)
    (userId : Uuid) (decision : Decision) (comment : Option String) : DeskTransaction Nat := do
  let desk ← get
  let approvers := desk.approvers.filter (·.approvalId = approval.approvalId)
  let count (d : Decision) : Nat :=
    (approvers.filter (·.decision = some d)).length + if decision = d then 1 else 0
  let terminal ← terminalStatus approval.mode approvers.length (count .approved) (count .rejected)
  let rowVersion ← recordDecision now approval userId decision comment terminal
  match terminal with
  | none => return rowVersion
  | some outcome =>
      match approval.transitionFor outcome with
      | none =>
          throw (approvalConfiguration
            "The terminal approval outcome has no workflow transition.")
      | some transitionId =>
          continueWorkflow now context approval transitionId
          return rowVersion

/-- `approver_rule.get("rejection_comment_required") is True`. -/
def rejectionCommentRequired : Json → Bool
  | .dict rule =>
      match lookup "rejection_comment_required" rule with
      | some (.bool required) => required
      | _ => false
  | _ => false

/-- The checks of `decide` between the expiry and the decision. -/
def admissible (approval : LockedApproval) (userId : Uuid) (command : ApprovalDecisionCommand)
    (comment : Option String) : Except AppError Unit :=
  if approval.status ≠ .pending then
    .error (.conflict "conflict" "Approval is no longer pending.")
  else if approval.rowVersion ≠ command.expectedVersion then
    .error (.concurrency "Approval row version is stale.")
  else if approval.existingDecision.isSome then
    .error (.conflict "conflict" "The approver has already decided this approval.")
  else if ¬ approval.allowRequesterSelfApproval ∧ approval.requesterUserId = userId then
    .error (.authorization "Requesters may not approve their own request.")
  else if command.decision = .rejected ∧ rejectionCommentRequired approval.approverRule ∧
      comment = none then
    .error (.validation "A rejection comment is required."
      [("comment", ["Explain why the approval was rejected."])])
  else .ok ()

/-- `ApprovalService.decide`. -/
def decide (now : Instant) (context : RequestContext) (approvalId : Uuid)
    (command : ApprovalDecisionCommand) (idempotencyKey : String) :
    DeskTransaction DecisionOutcome := do
  authorize context .approvalDecide
    "The authenticated user is not permitted to manage approvals."
  let (tenantId, userId) ← identity context (.notFound "Approval was not found.")
  let comment := normalizedComment command.comment
  let requestHash := sha256 <| dumpsSorted <| .dict
    [("approval_id", .str (uuidText approvalId)),
     ("decision", .str (if command.decision = .approved then "APPROVE" else "REJECT")),
     ("expected_version", .int command.expectedVersion),
     ("comment", (comment.map Json.str).getD .null)]
  let idem ← claimIdempotency tenantId userId idempotencyKey requestHash "APPROVAL_DECISION"
  checkIdempotency idem userId requestHash
  match lockForDecision (← get) tenantId approvalId userId with
  | none => throw (.notFound "Approval was not found.")
  | some approval =>
      if idem.resultResourceId.isSome then
        return .replayed
      if ← expireIfDue now approval then
        return .expired
      admissible approval userId command comment
      let rowVersion ← applyDecision now context approval userId command.decision comment
      completeIdempotency idem approvalId
      return .decided rowVersion

end Decide

end Helpdesk.Workflow
