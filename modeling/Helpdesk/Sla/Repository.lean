/-
  File:      Helpdesk/Sla/Repository.lean
  Subject:   The tables of the SLA engine and its SQL (apps/api/app/sla/repository.py,
             alembic 0009_business_calendar_sla).

  The store keeps, beside the tickets and the configuration, one record for each
  row of `ticket_sla`: the row, its events, the outbox messages about it, and the
  history of every version of the row that was written. The history is read by
  no operation; it is what "ever saved" speaks about.

  Events and messages are unique per row (`ticket_sla_event_key_ux`, the
  deduplication key of a message carries the row's id), so a table split by row
  is the table.
-/
import Helpdesk.Sla.Calendar

namespace Helpdesk.Sla

open Helpdesk.Python

/-! ## 1. Configuration -/

inductive VersionStatus where
  | draft | underReview | published | retired
  deriving DecidableEq, Repr

structure WorkflowStatus where
  statusId : Uuid
  workflowVersionId : Uuid
  statusCode : String
  statusCategory : String
  deriving DecidableEq, Repr

/-- A row of `sla_definition` joined with one of its versions. -/
structure DefinitionVersionRow where
  tenantId : Uuid
  projectId : Uuid
  activeFlag : Bool
  slaDefinitionId : Uuid
  slaDefinitionVersionId : Uuid
  versionNumber : Int
  versionStatus : VersionStatus
  effectiveFrom : Option Instant
  effectiveTo : Option Instant
  metricCode : String
  pauseConditions : Json

/-- A row of `sla_goal` joined with one of its versions, and the checks of the table. -/
structure GoalVersionRow where
  activeFlag : Bool
  slaGoalId : Uuid
  slaGoalVersionId : Uuid
  slaDefinitionVersionId : Uuid
  businessCalendarVersionId : Uuid
  versionNumber : Int
  versionStatus : VersionStatus
  effectiveFrom : Option Instant
  effectiveTo : Option Instant
  matchConditions : Json
  targetMinutes : Int
  warningMinutes : Option Int
  priorityOrder : Int
  target_pos : 0 < targetMinutes
  warning_nonneg : ∀ w ∈ warningMinutes, 0 ≤ w

structure CalendarVersionRow where
  versionStatus : VersionStatus
  version : BusinessCalendarVersion
  deriving DecidableEq, Repr

structure SlaConfig where
  /-- the time zone database -/
  zones : String → Option ZoneInfo
  statuses : List WorkflowStatus
  definitionVersions : List DefinitionVersionRow
  goalVersions : List GoalVersionRow
  calendarVersions : List CalendarVersionRow

/-- `(from IS NULL OR from<=at) AND (to IS NULL OR to>at)`. -/
def effective (effectiveFrom effectiveTo : Option Instant) (at_ : Instant) : Bool :=
  effectiveFrom.all (· ≤ at_) && effectiveTo.all (at_ < ·)

/-- `SlaMetric(metric_code)`, for the two codes that are metrics. -/
def slaMetric? : String → Option SlaMetric
  | "TIME_TO_FIRST_RESPONSE" => some .firstResponse
  | "TIME_TO_RESOLUTION" => some .resolution
  | _ => none

namespace SlaConfig

/-- `ORDER BY sla_definition_id,version_number DESC`. -/
def definitionOrder (a b : DefinitionVersionRow) : Prop :=
  a.slaDefinitionId < b.slaDefinitionId ∨
    a.slaDefinitionId = b.slaDefinitionId ∧ b.versionNumber ≤ a.versionNumber

instance : DecidableRel definitionOrder := fun _ _ => inferInstanceAs (Decidable (_ ∨ _))

/-- `definitions`. -/
def definitions (config : SlaConfig) (tenantId projectId : Uuid) (effectiveAt : Instant) :
    List SlaDefinitionVersion :=
  let rows := config.definitionVersions.filter fun row =>
    row.tenantId = tenantId && row.projectId = projectId && row.activeFlag &&
      row.versionStatus = .published && effective row.effectiveFrom row.effectiveTo effectiveAt
  (rows.insertionSort definitionOrder).filterMap fun row =>
    (slaMetric? row.metricCode).map fun metric =>
      { slaDefinitionId := row.slaDefinitionId
        slaDefinitionVersionId := row.slaDefinitionVersionId
        metric
        pauseConditions := row.pauseConditions }

/-- `_goal`: minutes become seconds. -/
def goal (row : GoalVersionRow) : SlaGoalVersion where
  slaGoalId := row.slaGoalId
  slaGoalVersionId := row.slaGoalVersionId
  slaDefinitionVersionId := row.slaDefinitionVersionId
  businessCalendarVersionId := row.businessCalendarVersionId
  matchConditions := row.matchConditions
  targetSeconds := row.targetMinutes * 60
  warningSeconds := row.warningMinutes.map (· * 60)
  priorityOrder := row.priorityOrder
  target_pos := by have := row.target_pos; omega
  warning_nonneg := by
    intro w hw
    obtain ⟨m, hm, rfl⟩ := Option.mem_map.mp hw
    have := row.warning_nonneg m hm
    omega

/-- `ORDER BY priority_order,sla_goal_id,version_number DESC`. -/
def goalOrder (a b : GoalVersionRow) : Prop :=
  a.priorityOrder < b.priorityOrder ∨ a.priorityOrder = b.priorityOrder ∧
    (a.slaGoalId < b.slaGoalId ∨ a.slaGoalId = b.slaGoalId ∧ b.versionNumber ≤ a.versionNumber)

instance : DecidableRel goalOrder := fun _ _ => inferInstanceAs (Decidable (_ ∨ _))

/-- `goals`. -/
def goals (config : SlaConfig) (definitionVersionId : Uuid) (effectiveAt : Instant) :
    List SlaGoalVersion :=
  let rows := config.goalVersions.filter fun row =>
    row.slaDefinitionVersionId = definitionVersionId && row.activeFlag &&
      row.versionStatus = .published && effective row.effectiveFrom row.effectiveTo effectiveAt
  (rows.insertionSort goalOrder).map goal

/-- `calendar`: a version in use, published or retired. -/
def calendar (config : SlaConfig) (versionId : Uuid) : Option BusinessCalendarVersion :=
  (config.calendarVersions.find? fun row =>
    row.version.businessCalendarVersionId = versionId &&
      (row.versionStatus = .published || row.versionStatus = .retired)).map (·.version)

end SlaConfig

/-! ## 2. Events and messages -/

inductive SlaEventType where
  | started | paused | resumed | stopped | met | warning | breached | recalculated
  deriving DecidableEq, Repr

/-- What an input event does to a row, as its key names it. -/
inductive InputAction where
  | paused | resumed | stopped | met | reopened | recalculated
  deriving DecidableEq, Repr

def InputAction.text : InputAction → String
  | paused => "paused"
  | resumed => "resumed"
  | stopped => "stopped"
  | met => "met"
  | reopened => "reopened"
  | recalculated => "recalculated"

/-- The keys `record_sla_event` is called with; `text` is the column's value. -/
inductive EventKey where
  | started (outboxEventId : Uuid)
  | input (outboxEventId : Uuid) (action : InputAction) (ticketSlaId : Uuid)
  | warning
  | breach
  deriving DecidableEq, Repr

def EventKey.text : EventKey → String
  | started e => "input:" ++ uuidText e ++ ":started"
  | input e action sla => "input:" ++ uuidText e ++ ":" ++ action.text ++ ":" ++ uuidText sla
  | warning => "warning"
  | breach => "breach"

structure SlaEvent where
  eventType : SlaEventType
  eventAt : Instant
  eventKey : EventKey
  data : List (String × Json)

inductive SlaOutboxType where
  | slaWarning | slaBreached
  deriving DecidableEq, Repr

structure SlaOutboxMessage where
  tenantId : Uuid
  aggregateId : Uuid
  eventType : SlaOutboxType
  payload : List (String × Json)
  deduplicationKey : String

/-! ## 3. The record of a row -/

structure SlaRecord where
  row : TicketSla
  events : List SlaEvent
  outbox : List SlaOutboxMessage
  versions : List TicketSla

namespace SlaRecord

def hasKey (record : SlaRecord) (key : EventKey) : Bool :=
  record.events.any fun event => event.eventKey = key

def addEvent (record : SlaRecord) (event : SlaEvent) : SlaRecord :=
  { record with events := record.events ++ [event] }

def addMessage (record : SlaRecord) (message : SlaOutboxMessage) : SlaRecord :=
  { record with outbox := record.outbox ++ [message] }

/-- `ON CONFLICT DO NOTHING` under `outbox_deduplication_ux`. -/
def emit (record : SlaRecord) (message : SlaOutboxMessage) : SlaRecord :=
  if record.outbox.any fun m => m.tenantId = message.tenantId ∧ m.eventType = message.eventType ∧
      m.deduplicationKey = message.deduplicationKey then record
  else record.addMessage message

/-- The columns `save` updates; the others keep their value. -/
def update (row sla : TicketSla) : TicketSla :=
  { row with
    goal := sla.goal
    state := sla.state
    targetAt := sla.targetAt
    warningAt := sla.warningAt
    pausedAt := sla.pausedAt
    accumulatedPauseSeconds := sla.accumulatedPauseSeconds
    completedAt := sla.completedAt
    breachedAt := sla.breachedAt
    elapsedWorkingSeconds := sla.elapsedWorkingSeconds
    remainingWorkingSeconds := sla.remainingWorkingSeconds
    lastCalculatedAt := sla.lastCalculatedAt
    warningEmittedAt := sla.warningEmittedAt
    rowVersion := row.rowVersion + 1 }

def put (record : SlaRecord) (sla : TicketSla) : SlaRecord :=
  { record with
    row := update record.row sla
    versions := record.versions ++ [update record.row sla] }

/-- `ticket_sla_temporal_ck`. -/
def temporalCheck (row : TicketSla) : Bool :=
  row.pausedAt.all (row.startedAt ≤ ·) && row.completedAt.all (row.startedAt ≤ ·) &&
    row.breachedAt.all (row.startedAt ≤ ·) && row.startedAt ≤ row.lastCalculatedAt

/-- `ticket_sla_remaining_ck`. -/
def remainingCheck (row : TicketSla) : Bool :=
  0 ≤ row.elapsedWorkingSeconds && 0 ≤ row.accumulatedPauseSeconds &&
    0 ≤ row.remainingWorkingSeconds

/-- The row `create_sla` inserts. -/
def createdSla (ticketSlaId : Uuid) (ticket : TicketFacts) (definition : SlaDefinitionVersion)
    (goal : SlaGoalVersion) (startedAt targetAt : Instant) (warningAt : Option Instant) :
    TicketSla where
  ticketSlaId := ticketSlaId
  tenantId := ticket.tenantId
  ticketId := ticket.ticketId
  definition := definition
  goal := goal
  state := .running
  startedAt := startedAt
  targetAt := targetAt
  warningAt := warningAt
  pausedAt := none
  accumulatedPauseSeconds := 0
  completedAt := none
  breachedAt := none
  elapsedWorkingSeconds := 0
  remainingWorkingSeconds := goal.targetSeconds
  lastCalculatedAt := startedAt
  warningEmittedAt := none
  rowVersion := 1

/-- The record of an inserted row. -/
def created (row : TicketSla) : SlaRecord where
  row := row
  events := []
  outbox := []
  versions := [row]

end SlaRecord

/-- What the engine does to one locked row. -/
abbrev RowTransaction := Transaction SlaRecord Failure

/-- `record_event`: `ON CONFLICT (ticket_sla_id,event_key) DO NOTHING`; a second
    WARNING or BREACHED under another key violates `ticket_sla_terminal_event_ux`. -/
def recordEvent (eventType : SlaEventType) (eventAt : Instant) (eventKey : EventKey)
    (data : List (String × Json)) : RowTransaction Bool := do
  let record ← get
  if record.hasKey eventKey then
    return false
  if (eventType = .warning ∨ eventType = .breached) ∧
      record.events.any fun event => event.eventType = eventType then
    throw (.constraint "ticket_sla_terminal_event_ux")
  set (record.addEvent ⟨eventType, eventAt, eventKey, data⟩)
  return true

/-- `save`. The source rebuilds the saved row from `sla`; no operation replaces a
    column that the `UPDATE` leaves out. -/
def save (sla : TicketSla) (expectedRowVersion : Nat) : RowTransaction TicketSla := do
  let record ← get
  if record.row.rowVersion ≠ expectedRowVersion then
    throw (.runtime "Concurrent SLA update detected.")
  let saved := record.put sla
  if ¬ SlaRecord.temporalCheck saved.row then
    throw (.constraint "ticket_sla_temporal_ck")
  if ¬ SlaRecord.remainingCheck saved.row then
    throw (.constraint "ticket_sla_remaining_ck")
  set saved
  return saved.row

/-- `emit_outbox`. -/
def emitOutbox (sla : TicketSla) (eventType : SlaOutboxType) (payload : List (String × Json))
    (deduplicationKey : String) : RowTransaction Unit :=
  modify fun record =>
    record.emit ⟨sla.tenantId, sla.ticketSlaId, eventType, payload, deduplicationKey⟩

/-! ## 4. The store -/

/-- A row of `itsm.ticket`, as far as the engine reads it; the work type is
    joined by a foreign key. -/
structure TicketRow where
  ticketId : Uuid
  tenantId : Uuid
  projectId : Uuid
  serviceNodeId : Option Uuid
  workTypeCode : String
  priorityCode : String
  statusId : Uuid
  workflowVersionId : Uuid
  createdAt : Instant
  firstResponseAt : Option Instant
  resolvedAt : Option Instant
  deriving DecidableEq, Repr

structure Store where
  tickets : List TicketRow
  config : SlaConfig
  records : List SlaRecord
  /-- the supply that stands for `gen_random_uuid()` -/
  nextSlaId : Uuid

namespace Store

/-- `ticket`. -/
def ticket (store : Store) (tenantId ticketId : Uuid) : Option TicketFacts := do
  let row ← store.tickets.find? fun t => t.tenantId = tenantId && t.ticketId = ticketId
  let status ← store.config.statuses.find? fun s => s.statusId = row.statusId
  return {
    ticketId := row.ticketId
    tenantId := row.tenantId
    projectId := row.projectId
    serviceNodeId := row.serviceNodeId
    workTypeCode := row.workTypeCode
    priorityCode := row.priorityCode
    statusCode := status.statusCode
    statusCategory := status.statusCategory
    createdAt := row.createdAt
    firstResponseAt := row.firstResponseAt
    resolvedAt := row.resolvedAt }

/-- `status_category`: the status is looked up in the ticket's workflow version. -/
def statusCategory (store : Store) (ticketId : Uuid) (statusCode : String) : Option String := do
  let row ← store.tickets.find? fun t => t.ticketId = ticketId
  let status ← store.config.statuses.find? fun s =>
    s.workflowVersionId = row.workflowVersionId && s.statusCode = statusCode
  return status.statusCategory

/-- The `WHERE` of `ticket_slas`. -/
def ofTicket (tenantId ticketId : Uuid) (row : TicketSla) : Bool :=
  row.tenantId = tenantId && row.ticketId = ticketId

/-- The `WHERE` of `due_slas`; a comparison with a null `warning_at` is not true. -/
def isDue (tenantId : Uuid) (dueAt : Instant) (row : TicketSla) : Bool :=
  row.tenantId = tenantId && row.state = .running &&
    (row.targetAt ≤ dueAt || (row.warningEmittedAt.isNone && row.warningAt.any (· ≤ dueAt)))

/-- `ORDER BY target_at,ticket_sla_id`. -/
def dueOrder (a b : TicketSla) : Prop :=
  a.targetAt < b.targetAt ∨ a.targetAt = b.targetAt ∧ a.ticketSlaId ≤ b.ticketSlaId

instance : DecidableRel dueOrder := fun _ _ => inferInstanceAs (Decidable (_ ∨ _))

/-- `due_slas`; no other transaction holds a row that it would skip. -/
def dueSlas (store : Store) (tenantId : Uuid) (dueAt : Instant) (limit : Nat) : List TicketSla :=
  (((store.records.map (·.row)).filter (isDue tenantId dueAt)).insertionSort dueOrder).take limit

/-- The statement of `record_first_response`: it sets what is null. -/
def markFirstResponse (store : Store) (tenantId ticketId : Uuid) (respondedAt : Instant) : Store :=
  { store with
    tickets := store.tickets.map fun t =>
      if t.tenantId = tenantId ∧ t.ticketId = ticketId ∧ t.firstResponseAt = none then
        { t with firstResponseAt := some respondedAt }
      else t }

/-- The conflict target of `create_sla`. -/
def hasSla (store : Store) (ticketId slaDefinitionId : Uuid) : Bool :=
  store.records.any fun r =>
    r.row.ticketId = ticketId && r.row.definition.slaDefinitionId = slaDefinitionId

end Store

end Helpdesk.Sla
