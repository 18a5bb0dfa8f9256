/-
  File:      Helpdesk/Workflow/Service.lean
  Subject:   Manual workflow transitions (apps/api/app/workflows).

  `execute` checks the guard, the validators and the actions of a transition,
  moves the ticket, writes the events and asks for the approvals the transition
  creates, all in one transaction.
-/
import Helpdesk.Tickets.Comments
import Helpdesk.Workflow.Approvals

namespace Helpdesk.Workflow

open Helpdesk.Python Helpdesk.Core Helpdesk.Tickets Json

/-- `WorkflowConfigurationError`. -/
def workflowConfiguration (detail : String) : AppError :=
  .conflict "workflow_configuration_conflict" detail

/-! ## 1. Records -/

/-- `WorkflowTicket`: the row with what it is joined with. -/
structure WorkflowTicket where
  row : Ticket
  workflowVersionStatus : VersionStatus
  statusCode : String

/-- `WorkflowTransition`: the row with the codes of its two statuses. -/
structure WorkflowTransition where
  row : WorkflowTransitionRow
  fromStatusCode : String
  toStatusCode : String

/-- `WorkflowRepository.ticket`. -/
def workflowTicket (desk : Desk) (context : RequestContext) (tenantId : Uuid)
    (ticketKey : String) : Option WorkflowTicket := do
  let row ← desk.analystTicket context tenantId ticketKey
  let version ← desk.config.workflowVersions.find? fun v =>
    v.workflowVersionId = row.workflowVersionId
  let status ← desk.config.statuses.find? fun s => s.statusId = row.statusId
  return ⟨row, version.versionStatus, status.statusCode⟩

/-- One of the two status joins of `WorkflowRepository.transition`. -/
def joinedStatus (config : DeskConfig) (workflowVersionId statusId : Uuid) :
    Option WorkflowStatus :=
  config.statuses.find? fun s => s.statusId = statusId && s.workflowVersionId = workflowVersionId

/-- `WorkflowRepository.transition`. -/
def workflowTransition (config : DeskConfig) (workflowVersionId currentStatusId : Uuid)
    (transitionCode : String) : Option WorkflowTransition := do
  let row ← config.transitions.find? fun t =>
    t.workflowVersionId = workflowVersionId && t.fromStatusId = currentStatusId &&
      t.transitionCode = transitionCode && t.activeFlag
  let fromStatus ← joinedStatus config row.workflowVersionId row.fromStatusId
  let toStatus ← joinedStatus config row.workflowVersionId row.toStatusId
  return ⟨row, fromStatus.statusCode, toStatus.statusCode⟩

/-! ## 2. Guard, validators and actions -/

/-- A value an update gives to a column. -/
inductive UpdateValue where
  | json (value : Json)
  | datetime (at_ : Instant)

/-- A UUID or a datetime among the values of a rule: it equals no JSON value, is
    not null and has no order with one. Of the JSON values that is NaN. -/
def object_ : Json := .float .nan

def UpdateValue.ruleValue : UpdateValue → Json
  | json value => value
  | datetime _ => object_

def UpdateValue.text? : UpdateValue → Option String
  | json (.str text) => some text
  | _ => none

def UpdateValue.datetime? : UpdateValue → Option Instant
  | datetime at_ => some at_
  | _ => none

/-- The items of `updates`; the last assignment to a field is the first found. -/
abbrev Updates := List (String × UpdateValue)

def Updates.get? (updates : Updates) (field : String) : Option UpdateValue :=
  (updates.find? (·.1 = field)).map (·.2)

/-- `_EDITABLE_FIELDS`. -/
def editableFields : List String := ["resolution_code", "resolution_summary"]

/-- `_TIMESTAMP_FIELDS`. -/
def timestampFields : List String := ["first_response_at", "resolved_at", "closed_at"]

/-- `_CLEARABLE_FIELDS`. -/
def clearableFields : List String := editableFields ++ timestampFields

def optionalText (value : Option String) : Json := (value.map Json.str).getD .null

def optionalObject {α : Type} (value : Option α) : Json := (value.map fun _ => object_).getD .null

/-- `_values`. -/
def values (ticket : WorkflowTicket) (updates : Updates) : List (String × Json) :=
  let row := ticket.row
  updates.map (fun item => (item.1, item.2.ruleValue)) ++
    [("ticket_id", object_), ("tenant_id", object_), ("ticket_key", .str row.ticketKey),
     ("project_id", object_), ("work_type_code", .str row.workTypeCode),
     ("workflow_version_id", object_),
     ("workflow_version_status", .str (match ticket.workflowVersionStatus with
       | .draft => "DRAFT"
       | .underReview => "UNDER_REVIEW"
       | .published => "PUBLISHED"
       | .retired => "RETIRED")),
     ("status_id", object_), ("status_code", .str ticket.statusCode),
     ("row_version", .int row.rowVersion), ("summary", .str row.summary),
     ("description", optionalText row.description),
     ("resolution_code", optionalText row.resolutionCode),
     ("resolution_summary", optionalText row.resolutionSummary),
     ("assignment_group_id", optionalObject row.assignmentGroupId),
     ("assignee_user_id", optionalObject row.assigneeUserId),
     ("first_response_at", optionalObject row.firstResponseAt),
     ("resolved_at", optionalObject row.resolvedAt),
     ("closed_at", optionalObject row.closedAt)]

/-- The errors of the rules, before `InvalidRule` is turned into a
    `WorkflowConfigurationError`. -/
def ofRule {α : Type} (result : Except RuleError α) : Except AppError α :=
  match result with
  | .ok a => .ok a
  | .error (.invalidRule _) => .error (workflowConfiguration
      "The workflow contains unsupported deterministic configuration.")
  | .error .typeError => .error .type

/-- One validator: the field it misses. -/
def missingField (fields : List (String × Json)) : Json → Except RuleError (Option String)
  | .dict items =>
      if items.length = 2 ∧ (lookup "type" items).isSome ∧ (lookup "field" items).isSome then
        match getD items "field" with
        | .str field =>
            if lower (pyStr (getD items "type")) ≠ "required_field" then
              .error (.invalidRule "Validator type is unsupported.")
            else .ok (if isBlank (getD fields field) then some field else none)
        | _ => .error (.invalidRule "Validator type is unsupported.")
      else .error (.invalidRule "Validator syntax is unsupported.")
  | _ => .error (.invalidRule "Validator syntax is unsupported.")

/-- `_validate_required`: the fields that are missing. -/
def missingFields (validators : Json) (fields : List (String × Json)) :
    Except RuleError (List String) :=
  if pyIn validators [.null, .list [], .dict []] then .ok []
  else match validators with
  | .list validators => do return (← validators.mapM (missingField fields)).filterMap id
  | _ => .error (.invalidRule "Validators must be an array.")

/-- `field in fields`: a list or a dict cannot be hashed. -/
def fieldIn (field : Json) (fields : List String) : Except RuleError Bool :=
  match field with
  | .str name => .ok (fields.contains name)
  | .list _ => .error .typeError
  | .dict _ => .error .typeError
  | _ => .ok false

/-- `action_type == name and field in fields`. -/
def isAction (actionType name : String) (field : Json) (fields : List String) :
    Except RuleError Bool :=
  if actionType = name then fieldIn field fields else .ok false

/-- The value of `approval_code` is a text. -/
def hasApprovalCode (items : List (String × Json)) : Bool :=
  match lookup "approval_code" items with
  | some (.str _) => true
  | _ => false

def fieldName : Json → String
  | .str name => name
  | _ => ""

/-- One action on the updates. -/
def applyAction (now : Instant) (updates : Updates) : Json → Except RuleError Updates
  | .dict items =>
      match getD items "type" with
      | .str type => do
          let actionType := upper type
          let field := getD items "field"
          if ← isAction actionType "SET_TIMESTAMP" field timestampFields then
            return (fieldName field, .datetime now) :: updates
          else if ← isAction actionType "CLEAR_FIELD" field clearableFields then
            return (fieldName field, .json .null) :: updates
          else if (← isAction actionType "SET_FIELD" field editableFields) &&
              (lookup "value" items).isSome then
            return (fieldName field, .json (getD items "value")) :: updates
          else if actionType = "CREATE_APPROVAL" ∧ items.length = 2 ∧ hasApprovalCode items then
            return updates
          else if actionType = "APPROVAL_CONTINUATION" ∧ items.length = 1 then
            return updates
          else throw (.invalidRule "Action type or field is unsupported.")
      | _ => .error (.invalidRule "Action syntax is unsupported.")
  | _ => .error (.invalidRule "Action syntax is unsupported.")

/-- `_apply_actions`. -/
def applyActions (now : Instant) (actions : Json) (updates : Updates) :
    Except RuleError Updates :=
  if pyIn actions [.null, .list [], .dict []] then .ok updates
  else match actions with
  | .list actions => actions.foldlM (applyAction now) updates
  | _ => .error (.invalidRule "Actions must be an array.")

/-- A value for `resolution_code`: null or a known code. -/
def codeValid (config : DeskConfig) : UpdateValue → Bool
  | .json (.str code) => config.resolutionCodes.contains code
  | .json .null => true
  | _ => false

/-- A value for `resolution_summary`: null or a text that is not too long. -/
def summaryValid : UpdateValue → Bool
  | .json (.str summary) => summary.length ≤ 20000
  | .json .null => true
  | _ => false

/-- `_validate_update_values`. -/
def validateUpdateValues (config : DeskConfig) (updates : Updates) : Except AppError Unit :=
  if ¬ (updates.get? "resolution_code").all (codeValid config) then
    .error (.validation "Resolution code is invalid."
      [("field_updates.resolution_code", ["Unknown resolution code."])])
  else if ¬ (updates.get? "resolution_summary").all summaryValid then
    .error (.validation "Resolution summary is invalid."
      [("field_updates.resolution_summary", ["Enter at most 20000 characters."])])
  else .ok ()

/-- `_validated_updates`. -/
def validatedUpdates (now : Instant) (config : DeskConfig) (ticket : WorkflowTicket)
    (transition : WorkflowTransition) (requested : List (String × Json)) :
    Except AppError Updates := do
  let unsupported := (requested.map (·.1)).filter fun field => ¬ editableFields.contains field
  if unsupported ≠ [] then
    throw (.validation "The transition contains unsupported field updates."
      ((unsupported.insertionSort (· ≤ ·)).map fun field =>
        (field, ["Field cannot be changed by a transition."])))
  let updates : Updates := requested.map fun item => (item.1, .json item.2)
  validateUpdateValues config updates
  let fields := values ticket updates
  if ¬ (← ofRule (evaluate transition.row.condition fields)) then
    throw (.invalidTransition "The transition guard conditions are not satisfied.")
  let missing ← ofRule (missingFields transition.row.validators fields)
  if missing ≠ [] then
    throw (.validation "Required transition fields are missing."
      (missing.eraseDups.map fun field =>
        ("field_updates." ++ field, ["Field is required for this transition."])))
  let updates ← ofRule (applyActions now transition.row.actions updates)
  validateUpdateValues config updates
  return updates

/-- `action.get("type", "")` of the two functions below: what is not a text has no
    `upper`. -/
def actionType (items : List (String × Json)) : Except AppError String :=
  match (lookup "type" items).getD (.str "") with
  | .str type => .ok (upper type)
  | _ => .error .attribute

/-- The loop of `_is_approval_continuation`; it stops at the first continuation. -/
def anyContinuation : List Json → Except AppError Bool
  | [] => .ok false
  | .dict items :: rest => do
      if (← actionType items) = "APPROVAL_CONTINUATION" then return true
      else anyContinuation rest
  | _ :: rest => anyContinuation rest

/-- `_is_approval_continuation`. -/
def isApprovalContinuation : Json → Except AppError Bool
  | .list actions => anyContinuation actions
  | _ => .ok false

/-- One action of `_approval_requests`. -/
def approvalRequest : Json → Except AppError (Option String)
  | .dict items => do
      if (← actionType items) = "CREATE_APPROVAL" then
        match lookup "approval_code" items with
        | some (.str code) => return some code
        | _ => return none
      else return none
  | _ => .ok none

/-- `_approval_requests`. -/
def approvalRequests : Json → Except AppError (List String)
  | .list actions => do return (← actions.mapM approvalRequest).filterMap id
  | _ => .ok []

/-! ## 3. The transaction -/

/-- The columns `apply_transition` sets. -/
def Updates.apply (updates : Updates) (toStatusId : Uuid) (t : Ticket) : Ticket :=
  let text (field : String) (old : Option String) : Option String :=
    ((updates.get? field).map UpdateValue.text?).getD old
  let datetime (field : String) (old : Option Instant) : Option Instant :=
    ((updates.get? field).map UpdateValue.datetime?).getD old
  { t with
    statusId := toStatusId
    resolutionCode := text "resolution_code" t.resolutionCode
    resolutionSummary := text "resolution_summary" t.resolutionSummary
    firstResponseAt := datetime "first_response_at" t.firstResponseAt
    resolvedAt := datetime "resolved_at" t.resolvedAt
    closedAt := datetime "closed_at" t.closedAt }

/-- The payload `record_transition` writes. -/
def transitionPayload (ticket : Ticket) (transition : WorkflowTransition) (newRowVersion : Nat)
    (correlationId requestId : String) : List (String × Json) :=
  [("ticket_key", .str ticket.ticketKey),
   ("transition_id", .str (uuidText transition.row.transitionId)),
   ("transition_code", .str transition.row.transitionCode),
   ("workflow_version_id", .str (uuidText ticket.workflowVersionId)),
   ("from_status", .str transition.fromStatusCode),
   ("to_status", .str transition.toStatusCode),
   ("synchronous_actions", transition.row.actions),
   ("old_row_version", .int ticket.rowVersion),
   ("new_row_version", .int newRowVersion),
   ("correlation_id", .str correlationId),
   ("request_id", .str requestId)]

/-- `record_transition`. -/
def recordTransition (now : Instant) (context : RequestContext) (ticket : Ticket)
    (transition : WorkflowTransition) (newRowVersion : Nat) : DeskTransaction Unit := do
  let payload := transitionPayload ticket transition newRowVersion context.correlationId
    context.requestId
  emit now ticket.tenantId "TICKET" ticket.ticketId "TICKET_WORKFLOW_TRANSITIONED" payload none
  emitOrIgnore now ticket.tenantId "TICKET" ticket.ticketId "NOTIFY_STATUS_CHANGED" payload
    (.notifyStatus transition.row.transitionId ticket.ticketId newRowVersion)

structure TransitionCommand where
  transitionCode : String
  rowVersion : Nat
  fieldUpdates : List (String × Json)
  comment : Option String

/-- The part of `execute` that moves the ticket, from the checks of the locked row
    to `record_transition`. -/
def moveTicket (now : Instant) (context : RequestContext) (userId : Uuid)
    (ticket : WorkflowTicket) (transition : WorkflowTransition) (command : TransitionCommand)
    (comment : Option String) : DeskTransaction Unit := do
  let updates ← validatedUpdates now (← get).config ticket transition command.fieldUpdates
  match comment with
  | some body =>
      let _ ← addPublicComment now ticket.row.tenantId ticket.row.ticketId userId body
        "AGENT_PUBLIC_RESPONSE_ADDED"
  | none => pure ()
  updateTicket ticket.row.ticketId (updates.apply transition.row.toStatusId)
  recordTransition now context ticket.row transition (ticket.row.rowVersion + 1)

/-- `WorkflowService.execute`: the new row version, or `none` for a replay. -/
def execute (sha256 : String → String) (now : Instant) (context : RequestContext)
    (ticketKey : String) (command : TransitionCommand) (idempotencyKey : String) :
    DeskTransaction (Option Nat) := do
  authorize context .ticketTransition
    "The authenticated user is not permitted to transition tickets."
  let (tenantId, userId) ← identity context (.notFound "Ticket was not found.")
  let comment := normalizedComment command.comment
  let requestHash := sha256 <| dumpsSorted <| .dict
    [("ticket_key", .str ticketKey), ("transition_code", .str command.transitionCode),
     ("row_version", .int command.rowVersion), ("field_updates", .dict command.fieldUpdates),
     ("comment", optionalText comment)]
  -- no other transaction runs between the two reads of the ticket
  match workflowTicket (← get) context tenantId ticketKey with
  | none => throw (.notFound "Ticket was not found.")
  | some ticket =>
      let idem ← claimIdempotency tenantId userId idempotencyKey requestHash "TICKET_TRANSITION"
      checkIdempotency idem userId requestHash
      if idem.resultResourceId.isSome then
        return none
      if ticket.row.rowVersion ≠ command.rowVersion then
        throw (.concurrency "Ticket row version is stale.")
      if ticket.workflowVersionStatus ≠ .published ∧ ticket.workflowVersionStatus ≠ .retired then
        throw (workflowConfiguration
          "The ticket does not reference an executable workflow version.")
      match workflowTransition (← get).config ticket.row.workflowVersionId ticket.row.statusId
          command.transitionCode with
      | none =>
          throw (.invalidTransition
            "The transition is not allowed from the ticket's current status.")
      | some transition =>
          if ← isApprovalContinuation transition.row.actions then
            throw (.invalidTransition
              "The transition can only be executed by a completed approval.")
          moveTicket now context userId ticket transition command comment
          let requests ← approvalRequests transition.row.actions
          requests.forM (request now tenantId ticket.row.ticketId)
          completeIdempotency idem ticket.row.ticketId
          return some (ticket.row.rowVersion + 1)

end Helpdesk.Workflow
