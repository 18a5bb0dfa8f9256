/-
  File:      Helpdesk/Sla/Models.lean
  Subject:   Business-calendar and SLA runtime records (apps/api/app/sla/models.py).

  The records are the source's, field by field. A goal version also carries what
  the database checks of its row (`target_minutes > 0`, `warning_minutes >= 0`),
  so that no goal without a target can be built.
-/
import Helpdesk.Python.Datetime
import Helpdesk.Python.Json
import Helpdesk.Python.Uuid

namespace Helpdesk.Sla

open Helpdesk.Python

inductive CalendarExceptionType where
  | closed | customHours
  deriving DecidableEq, Repr

inductive SlaMetric where
  | firstResponse | resolution
  deriving DecidableEq, Repr

inductive SlaState where
  | pending | running | paused | completed | breached | cancelled
  deriving DecidableEq, Repr

structure WorkingPeriod where
  isoDayOfWeek : Int
  startLocalTime : TimeOfDay
  endLocalTime : TimeOfDay
  deriving DecidableEq, Repr

structure CalendarException where
  exceptionDate : Date
  exceptionType : CalendarExceptionType
  startLocalTime : Option TimeOfDay
  endLocalTime : Option TimeOfDay
  deriving DecidableEq, Repr

structure BusinessCalendarVersion where
  businessCalendarVersionId : Uuid
  calendarId : Uuid
  timezoneName : String
  twentyFourSeven : Bool
  workingPeriods : List WorkingPeriod
  exceptions : List CalendarException
  deriving DecidableEq, Repr

structure SlaDefinitionVersion where
  slaDefinitionId : Uuid
  slaDefinitionVersionId : Uuid
  metric : SlaMetric
  pauseConditions : Json

structure SlaGoalVersion where
  slaGoalId : Uuid
  slaGoalVersionId : Uuid
  slaDefinitionVersionId : Uuid
  businessCalendarVersionId : Uuid
  matchConditions : Json
  targetSeconds : Int
  warningSeconds : Option Int
  priorityOrder : Int
  target_pos : 0 < targetSeconds
  warning_nonneg : ∀ w ∈ warningSeconds, 0 ≤ w

structure TicketFacts where
  ticketId : Uuid
  tenantId : Uuid
  projectId : Uuid
  serviceNodeId : Option Uuid
  workTypeCode : String
  priorityCode : String
  statusCode : String
  statusCategory : String
  createdAt : Instant
  firstResponseAt : Option Instant
  resolvedAt : Option Instant
  deriving DecidableEq, Repr

structure TicketSla where
  ticketSlaId : Uuid
  tenantId : Uuid
  ticketId : Uuid
  definition : SlaDefinitionVersion
  goal : SlaGoalVersion
  state : SlaState
  startedAt : Instant
  targetAt : Instant
  warningAt : Option Instant
  pausedAt : Option Instant
  accumulatedPauseSeconds : Int
  completedAt : Option Instant
  breachedAt : Option Instant
  elapsedWorkingSeconds : Int
  remainingWorkingSeconds : Int
  lastCalculatedAt : Instant
  warningEmittedAt : Option Instant
  rowVersion : Nat

/-- The event types the engine knows, and any other the outbox may carry. -/
inductive SlaInputEventType where
  | startSla | agentPublicResponseAdded | customerCommentAdded
  | ticketWorkflowTransitioned | ticketPriorityChanged
  | other (eventType : String)
  deriving DecidableEq, Repr

def SlaInputEventType.text : SlaInputEventType → String
  | startSla => "START_SLA"
  | agentPublicResponseAdded => "AGENT_PUBLIC_RESPONSE_ADDED"
  | customerCommentAdded => "CUSTOMER_COMMENT_ADDED"
  | ticketWorkflowTransitioned => "TICKET_WORKFLOW_TRANSITIONED"
  | ticketPriorityChanged => "TICKET_PRIORITY_CHANGED"
  | other eventType => eventType

structure SlaInputEvent where
  outboxEventId : Uuid
  tenantId : Uuid
  ticketId : Uuid
  eventType : SlaInputEventType
  payload : List (String × Json)
  occurredAt : Instant

/-! ## The values rules read -/

def TicketFacts.ruleValues (ticket : TicketFacts) : List (String × Json) :=
  [("priority_code", .str ticket.priorityCode),
   ("service_node_id", (ticket.serviceNodeId.map fun id => Json.str (uuidText id)).getD .null),
   ("work_type_code", .str ticket.workTypeCode)]

end Helpdesk.Sla
