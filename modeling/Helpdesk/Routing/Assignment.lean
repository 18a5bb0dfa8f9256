/-
  File:      Helpdesk/Routing/Assignment.lean
  Subject:   Automatic assignment (apps/api/app/routing: `RoutingService.route` with
             `_assignee`, and the statements of repository.py it makes).

  A route is a procedure: it looks at the ticket, claims its idempotency key, locks
  the ticket, selects a rule, and for a round-robin rule takes the advisory lock of
  the group before it counts the group's assignments. Its row in
  `assignment_history` is committed with the ticket.

  Left out: the rows of `ticket_event`, `outbox_event` and `audit_event`, which no
  statement here reads, and the answer, which is read after the COMMIT.
-/
import Helpdesk.Lib.Transactions
import Helpdesk.Routing.Selection
import Helpdesk.Tickets.Database
import Mathlib.Data.Prod.Lex

namespace Helpdesk.Routing

open Helpdesk.Python Helpdesk.Core Helpdesk.Tickets Helpdesk.Transactions
open Helpdesk.Transactions.Procedure

/-! ## 1. Tables -/

/-- `member_role` -/
inductive MemberRole where
  | agent | lead | manager | observer
  deriving DecidableEq, Repr

structure SupportGroup where
  supportGroupId : Uuid
  tenantId : Uuid
  groupCode : String
  activeFlag : Bool

structure SupportGroupMember where
  supportGroupId : Uuid
  userId : Uuid
  memberRole : MemberRole
  activeFlag : Bool

structure AppUser where
  userId : Uuid
  tenantId : Uuid
  activeFlag : Bool

/-- config.routing_rule -/
structure RoutingRule where
  routingRuleId : Uuid
  tenantId : Uuid
  projectId : Uuid
  activeFlag : Bool
  effectiveStartAt : Option Instant
  effectiveEndAt : Option Instant

/-- config.routing_rule_version -/
structure RuleVersion where
  routingRuleVersionId : Uuid
  routingRuleId : Uuid
  versionNumber : Nat
  rulePriority : Int
  conditionJson : Json
  assignmentGroupId : Uuid
  assignmentMethod : String
  assigneeUserId : Option Uuid
  published : Bool
  publishedAt : Option Instant
  effectiveFrom : Option Instant
  effectiveTo : Option Instant

/-- itsm.assignment_history -/
structure Assignment where
  ticketId : Uuid
  fromGroupId : Option Uuid
  toGroupId : Option Uuid
  fromAssigneeId : Option Uuid
  toAssigneeId : Option Uuid
  assignmentReason : String
  routingRuleId : Option Uuid
  routingRuleVersionId : Option Uuid
  assignedBy : Uuid
  deriving DecidableEq, Repr

/-- `response_payload_json` -/
structure AssignmentPayload where
  assignmentGroupCode : String
  assigneeUserId : Option Uuid
  routingRuleVersionId : Option Uuid
  fallback : Bool
  deriving DecidableEq, Repr

/-- integration.idempotency_record -/
structure RoutingRecord where
  idempotencyRecordId : Uuid
  tenantId : Uuid
  principalId : Uuid
  operationCode : String
  idempotencyKey : String
  requestHash : String
  /-- of a COMPLETED record -/
  responsePayload : Option AssignmentPayload

structure Tables where
  tickets : List RoutingTicket
  groups : List SupportGroup
  members : List SupportGroupMember
  users : List AppUser
  rules : List RoutingRule
  versions : List RuleVersion
  history : List Assignment
  records : List RoutingRecord

/-- What locks are taken on: a ticket, the key of an idempotency record, and the
    advisory lock of a group. -/
inductive Lock where
  | ticket (ticketId : Uuid)
  | idempotency (tenantId : Uuid) (operation key : String)
  | group (groupId : Uuid)
  deriving DecidableEq

/-- The statements that change something. -/
inductive Statement where
  | claim (record : RoutingRecord)
  | assign (ticketId groupId : Uuid) (assigneeId : Option Uuid)
  | record (assignment : Assignment)
  | complete (recordId : Uuid) (payload : AssignmentPayload)

def RoutingRecord.keyed (tenantId : Uuid) (operation key : String) (r : RoutingRecord) : Bool :=
  r.tenantId = tenantId ∧ r.operationCode = operation ∧ r.idempotencyKey = key

/-- An UPDATE of the ticket; the trigger raises its `row_version`. -/
def assigned (ticketId groupId : Uuid) (assigneeId : Option Uuid) (t : RoutingTicket) :
    RoutingTicket :=
  if t.ticketId = ticketId then
    { t with
      assignmentGroupId := some groupId
      assigneeUserId := assigneeId
      rowVersion := t.rowVersion + 1 }
  else t

def completed (recordId : Uuid) (payload : AssignmentPayload) (r : RoutingRecord) : RoutingRecord :=
  if r.idempotencyRecordId = recordId then { r with responsePayload := some payload } else r

def Tables.change (d : Tables) : Statement → Tables
  | .claim record =>
      -- ON CONFLICT DO NOTHING
      if d.records.any (·.keyed record.tenantId record.operationCode record.idempotencyKey) then d
      else { d with records := d.records ++ [record] }
  | .assign ticketId groupId assigneeId =>
      { d with tickets := d.tickets.map (assigned ticketId groupId assigneeId) }
  | .record assignment => { d with history := d.history ++ [assignment] }
  | .complete recordId payload => { d with records := d.records.map (completed recordId payload) }

instance : Database Tables Statement where
  change := Tables.change

/-! ## 2. What the statements select -/

/-- The active members a route may choose: no observers, and active users of the tenant. -/
def eligible (d : Tables) (tenantId groupId : Uuid) : List Uuid :=
  (d.members.filter fun m => m.supportGroupId = groupId ∧ m.activeFlag ∧
    m.memberRole ∈ [.agent, .lead, .manager] ∧
    d.users.any fun u => u.userId = m.userId ∧ u.tenantId = tenantId ∧ u.activeFlag).map (·.userId)

/-- The assignments to a group's member. -/
def assignmentCount (history : List Assignment) (groupId userId : Uuid) : Nat :=
  history.countP fun a => a.toGroupId = some groupId ∧ a.toAssigneeId = some userId

/-- `ORDER BY count(...), member.user_id LIMIT 1` -/
def fewestAssignments (d : Tables) (tenantId groupId : Uuid) : Option Uuid :=
  ((eligible d tenantId groupId).insertionSort fun a b =>
    toLex (assignmentCount d.history groupId a, a) ≤
      toLex (assignmentCount d.history groupId b, b)).head?

/-- The time is within what two optional bounds leave. -/
def inEffect (now : Instant) (start stop : Option Instant) : Bool :=
  (start.all fun t => t ≤ now) && stop.all fun t => now < t

/-- `rule_versions` -/
def ruleVersions (now : Instant) (ticket : RoutingTicket) (d : Tables) : List RoutingRuleVersion :=
  (d.rules.filter fun rule => rule.tenantId = ticket.tenantId ∧ rule.projectId = ticket.projectId ∧
    rule.activeFlag ∧ inEffect now rule.effectiveStartAt rule.effectiveEndAt).flatMap fun rule =>
  (d.versions.filter fun v => v.routingRuleId = rule.routingRuleId ∧ v.published ∧
    v.publishedAt.any (· ≤ now) ∧ inEffect now v.effectiveFrom v.effectiveTo).flatMap fun v =>
  (d.groups.filter fun g => g.supportGroupId = v.assignmentGroupId ∧ g.tenantId = rule.tenantId ∧
    g.activeFlag).map fun g =>
  ⟨rule.routingRuleId, v.routingRuleVersionId, v.versionNumber, v.rulePriority, v.conditionJson,
    v.assignmentGroupId, v.assignmentMethod, v.assigneeUserId, v.effectiveFrom, g.groupCode⟩

/-- `target`, for a group with an assignee: the assignee is an active member. -/
def isTarget (tenantId groupId assigneeId : Uuid) (d : Tables) : Bool :=
  (d.groups.any fun g => g.tenantId = tenantId ∧ g.supportGroupId = groupId ∧ g.activeFlag) &&
  d.members.any fun m => m.supportGroupId = groupId ∧ m.userId = assigneeId ∧ m.activeFlag ∧
    d.users.any fun u => u.userId = m.userId ∧ u.tenantId = tenantId ∧ u.activeFlag

/-! ## 3. `route` -/

structure RouteRequest where
  context : RequestContext
  ticketKey : String
  /-- of the command -/
  rowVersion : Nat
  idempotencyKey : String
  /-- `now()`: when the transaction starts -/
  startedAt : Instant
  /-- the default of a new idempotency record's id -/
  newRecordId : Uuid

abbrev RoutingCall := Procedure Tables Lock Statement AppError

/-- `RoutingConfigurationError` -/
def routingConfiguration (message : String) : AppError :=
  .conflict "routing_configuration_conflict" message

def selectionError : SelectError → AppError
  | .configuration message => routingConfiguration message
  | .typeError => .type

/-- The ticket, when the caller may see it. -/
def ticketFor (request : RouteRequest) (tenantId : Uuid) (d : Tables) : Option RoutingTicket :=
  d.tickets.find? fun t => t.tenantId = tenantId ∧ t.ticketKey = request.ticketKey ∧
    (request.context.isAllowed .ticketReadAll ∨
      t.assignmentGroupId.all (· ∈ request.context.supportGroupIds))

/-- `claim_idempotency` -/
def claimIdempotency (record : RoutingRecord) : RoutingCall RoutingRecord := do
  acquire (.idempotency record.tenantId record.operationCode record.idempotencyKey)
  write (.claim record)
  let claimed ← query fun d => d.records.find?
    (·.keyed record.tenantId record.operationCode record.idempotencyKey)
  -- `.one()`
  demand claimed (.value "No row was found when one was required")

/-- `_locked_ticket`: the row is read again when its lock is granted -/
def lockedTicket (request : RouteRequest) (tenantId : Uuid) : RoutingCall RoutingTicket := do
  let changed := .concurrency "Ticket changed while assignment was acquiring its lock."
  let found ← query (ticketFor request tenantId)
  let ticket ← demand found changed
  acquire (.ticket ticket.ticketId)
  let locked ← query (ticketFor request tenantId)
  demand locked changed

/-- `round_robin_assignee` -/
def roundRobinAssignee (tenantId groupId : Uuid) : RoutingCall (Option Uuid) := do
  acquire (.group groupId)
  query fun d => fewestAssignments d tenantId groupId

/-- `_assignee` -/
def assignee (ticket : RoutingTicket) (rule : RoutingRuleVersion) : RoutingCall (Option Uuid) :=
  let unsupported := routingConfiguration
    "The published routing rule uses an unsupported or invalid assignment method."
  if rule.assignmentMethod = "GROUP_ONLY" then pure none
  else if rule.assignmentMethod = "ROUND_ROBIN" then do
    let chosen ← roundRobinAssignee ticket.tenantId rule.assignmentGroupId
    let assigneeId ← demand chosen
      (routingConfiguration "The round-robin group has no active eligible analysts.")
    return some assigneeId
  else if rule.assignmentMethod = "NAMED_ASSIGNEE" then do
    let assigneeId ← demand rule.assigneeUserId unsupported
    let valid ← query (isTarget ticket.tenantId rule.assignmentGroupId assigneeId)
    check (valid = true) unsupported
    return some assigneeId
  else .fail unsupported

/-- `assign`: `false` when the row is no longer the one that was read -/
def assign (ticket : RoutingTicket) (groupId : Uuid) (assigneeId : Option Uuid) : RoutingCall Bool := do
  let unchanged ← query fun d => d.tickets.any fun t =>
    t.ticketId = ticket.ticketId ∧ t.rowVersion = ticket.rowVersion ∧
      t.assignmentGroupId = ticket.assignmentGroupId ∧ t.assigneeUserId = ticket.assigneeUserId
  if unchanged then do
    write (.assign ticket.ticketId groupId assigneeId)
    return true
  else return false

/-- The row of `record_assignment`. -/
def historyRow (ticket : RoutingTicket) (selection : Selection) (assigneeId : Option Uuid)
    (userId : Uuid) : Assignment where
  ticketId := ticket.ticketId
  fromGroupId := ticket.assignmentGroupId
  toGroupId := some selection.rule.assignmentGroupId
  fromAssigneeId := ticket.assigneeUserId
  toAssigneeId := assigneeId
  assignmentReason := if selection.fallback then "DEFAULT_ROUTE" else "ROUTING_RULE"
  routingRuleId := some selection.rule.routingRuleId
  routingRuleVersionId := some selection.rule.routingRuleVersionId
  assignedBy := userId

def routePayload (selection : Selection) (assigneeId : Option Uuid) : AssignmentPayload where
  assignmentGroupCode := selection.rule.groupCode
  assigneeUserId := assigneeId
  routingRuleVersionId := some selection.rule.routingRuleVersionId
  fallback := selection.fallback

/-- `_authorize_group` -/
def authorizeGroup (context : RequestContext) (groupId : Uuid) : RoutingCall Unit :=
  check (context.isAllowed .ticketReadAll ∨ groupId ∈ context.supportGroupIds)
    (.authorization "The authenticated user is not permitted to assign tickets to this group.")

/-- The part of `route` after its idempotency key is claimed. -/
def routeTicket (request : RouteRequest) (tenantId userId recordId : Uuid) :
    RoutingCall (AssignmentPayload × Bool) := do
  let ticket ← lockedTicket request tenantId
  check (ticket.rowVersion = request.rowVersion) (.concurrency "Ticket row version is stale.")
  let versions ← query (ruleVersions request.startedAt ticket)
  let selection ← liftM ((selectRule versions ticket).mapError selectionError)
  authorizeGroup request.context selection.rule.assignmentGroupId
  let assigneeId ← assignee ticket selection.rule
  let written ← assign ticket selection.rule.assignmentGroupId assigneeId
  check (written = true) (.concurrency "Ticket changed while routing was executing.")
  write (.record (historyRow ticket selection assigneeId userId))
  write (.complete recordId (routePayload selection assigneeId))
  save
  return (routePayload selection assigneeId, false)

def operationCode : String := "TICKET_ROUTE"

/-- `route`; `requestHash` is the hash of the ticket key and the row version -/
def route (requestHash : String → Nat → String) (request : RouteRequest) :
    RoutingCall (AssignmentPayload × Bool) := do
  liftM (authorize request.context .ticketRoute
    "The authenticated user is not permitted to assign tickets.")
  let (tenantId, userId) ← liftM (identity request.context (.authorization "Access denied"))
  let hash := requestHash request.ticketKey request.rowVersion
  let found ← query (ticketFor request tenantId)
  let _ ← demand found (.notFound "Ticket was not found.")
  let idem ← claimIdempotency ⟨request.newRecordId, tenantId, userId, operationCode,
    request.idempotencyKey, hash, none⟩
  check (idem.requestHash = hash ∧ idem.principalId = userId) idempotencyConflict
  match idem.responsePayload with
  | some payload => do
      save
      return (payload, true)
  | none => routeTicket request tenantId userId idem.idempotencyRecordId

end Helpdesk.Routing
