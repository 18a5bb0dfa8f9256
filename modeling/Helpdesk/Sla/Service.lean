/-
  File:      Helpdesk/Sla/Service.lean
  Subject:   The event-driven SLA lifecycle (apps/api/app/sla/service.py).

  `process` and `evaluateDue` are transactions on the store. What they do to one
  locked row (`pause`, `resume`, `complete`, `reopen`, `recalculate`, `advance`,
  `warning`, `breach`) is a transaction on that row's record, so a loop over the
  rows of a ticket touches each record on its own.

  The counters of `SlaMetrics` and the log lines are left out: nothing reads them.
-/
import Helpdesk.Core.Rules
import Helpdesk.Sla.Repository

namespace Helpdesk.Sla

open Helpdesk.Python Helpdesk.Core Json

/-! ## 1. Configuration -/

/-- `_GOAL_FIELDS`. -/
def goalFields : List String := ["priority_code", "service_node_id", "work_type_code"]

mutual

/-- `_rule_fields`: the fields a rule reads, at any depth. -/
def ruleFields : Json → List String
  | .dict items =>
      (match lookup "field" items with
        | some field => [pyStr field]
        | none => []) ++ ruleFieldsItems items
  | .list items => ruleFieldsList items
  | _ => []

def ruleFieldsItems : List (String × Json) → List String
  | [] => []
  | (_, nested) :: rest => ruleFields nested ++ ruleFieldsItems rest

def ruleFieldsList : List Json → List String
  | [] => []
  | item :: rest => ruleFields item ++ ruleFieldsList rest

end

/-- `_goal_matches`. -/
def goalMatches (configuration : Json) (values : List (String × Json)) : Except Failure Bool :=
  if pyIn configuration [.dict [], .null] then .ok true
  else match configuration with
  | .dict items =>
      if items.all fun item => goalFields.contains item.1 then
        .ok (items.all fun item => pyEq (getD values item.1) (.str (pyStr item.2)))
      else if ¬ (ruleFields configuration).all goalFields.contains then
        .error (.configuration "SLA goal condition references an unsupported field.")
      else match evaluate configuration values with
        | .ok result => .ok result
        | .error (.invalidRule _) => .error (.configuration "SLA goal condition is invalid.")
        | .error .typeError => .error .type
  | _ => .error (.configuration "SLA goal condition must be an object.")

/-- One entry of the pause conditions. -/
def pauseStatus : Json → Except Failure String
  | .dict [("status_code", status)] =>
      match status with
      | .str code =>
          if code = "" then .error (.configuration "SLA pause status is invalid.") else .ok code
      | _ => .error (.configuration "SLA pause status is invalid.")
  | _ => .error (.configuration "SLA pause condition is unsupported.")

/-- `_pause_statuses`. -/
def pauseStatuses (configuration : Json) : Except Failure (List String) :=
  if pyIn configuration [.null, .list [], .dict []] then .ok []
  else match configuration with
  | .list conditions => conditions.mapM pauseStatus
  | _ => .error (.configuration "SLA pause conditions must be an array.")

/-- The sort key of `_select_goal`. -/
def candidateOrder (a b : SlaGoalVersion) : Prop :=
  a.priorityOrder < b.priorityOrder ∨
    a.priorityOrder = b.priorityOrder ∧ a.slaGoalId ≤ b.slaGoalId

instance : DecidableRel candidateOrder := fun _ _ => inferInstanceAs (Decidable (_ ∨ _))

/-- `_select_goal`. -/
def selectGoal (config : SlaConfig) (definition : SlaDefinitionVersion) (ticket : TicketFacts)
    (effectiveAt : Instant) : Except Failure SlaGoalVersion := do
  let candidates ← (config.goals definition.slaDefinitionVersionId effectiveAt).filterM
    fun goal => goalMatches goal.matchConditions ticket.ruleValues
  match candidates.insertionSort candidateOrder with
  | [] => throw (.configuration "No published SLA goal matches the ticket.")
  | [goal] => return goal
  | goal :: next :: _ =>
      if goal.priorityOrder = next.priorityOrder then
        throw (.configuration "Published SLA goals have an ambiguous priority tie.")
      return goal

/-- `_calendar`. -/
def goalCalendar (config : SlaConfig) (goal : SlaGoalVersion) : Except Failure BusinessCalendar :=
  match config.calendar goal.businessCalendarVersionId with
  | none => .error (.configuration "SLA goal references an unavailable calendar version.")
  | some version =>
      match BusinessCalendar.construct config.zones version with
      | .error (.calendar message) => .error (.configuration message)
      | result => result

/-- `_warning_at`. -/
def warningAt (calendar : BusinessCalendar) (startedAt : Instant) (goal : SlaGoalVersion) :
    Except Failure (Option Instant) :=
  match goal.warningSeconds with
  | none => .ok none
  | some warningSeconds =>
      some <$> calendar.addBusinessSeconds startedAt (max 0 (goal.targetSeconds - warningSeconds))

/-- `_remaining_warning_at`. -/
def remainingWarningAt (calendar : BusinessCalendar) (resumedAt : Instant) (sla : TicketSla) :
    Except Failure (Option Instant) :=
  match sla.warningEmittedAt, sla.goal.warningSeconds with
  | none, some warningSeconds =>
      some <$> calendar.addBusinessSeconds resumedAt
        (max 0 (sla.remainingWorkingSeconds - warningSeconds))
  | _, _ => .ok sla.warningAt

/-- `_required_string`. -/
def requiredString (payload : List (String × Json)) (key : String) : Except Failure String :=
  match getD payload key with
  | .str value =>
      if value = "" then .error (.configuration ("SLA input is missing " ++ key ++ "."))
      else .ok value
  | _ => .error (.configuration ("SLA input is missing " ++ key ++ "."))

/-! ## 2. One row -/

/-- `_calculated`: the clock of a running row moved forward to `at_`. -/
def calculated (config : SlaConfig) (sla : TicketSla) (at_ : Instant) : Except Failure TicketSla :=
  if sla.state ≠ .running ∨ at_ ≤ sla.lastCalculatedAt then .ok sla
  else do
    let calendar ← goalCalendar config sla.goal
    let elapsed := sla.elapsedWorkingSeconds +
      (← calendar.businessSecondsBetween sla.lastCalculatedAt at_)
    return { sla with
      elapsedWorkingSeconds := elapsed
      remainingWorkingSeconds := max 0 (sla.goal.targetSeconds - elapsed)
      lastCalculatedAt := at_ }

/-- `advanced == sla`, on the fields `_calculated` replaces. -/
def sameClock (a b : TicketSla) : Bool :=
  a.elapsedWorkingSeconds = b.elapsedWorkingSeconds &&
    a.remainingWorkingSeconds = b.remainingWorkingSeconds &&
    a.lastCalculatedAt = b.lastCalculatedAt

/-- `_advance`. -/
def advance (config : SlaConfig) (sla : TicketSla) (at_ : Instant) : RowTransaction TicketSla := do
  if sla.state ≠ .running then
    return sla
  let advanced ← calculated config sla at_
  if sameClock advanced sla then
    return sla
  save advanced sla.rowVersion

/-- The payload both messages about a row carry. -/
def outboxPayload (sla : TicketSla) : List (String × Json) :=
  [("ticket_id", .str (uuidText sla.ticketId)),
   ("ticket_sla_id", .str (uuidText sla.ticketSlaId)),
   ("sla_goal_version_id", .str (uuidText sla.goal.slaGoalVersionId))]

/-- `_warning`. -/
def warning (sla : TicketSla) (at_ : Instant) : RowTransaction TicketSla := do
  if !(← recordEvent .warning at_ .warning
      [("remaining_working_seconds", .int sla.remainingWorkingSeconds)]) then
    return sla
  let warned ← save { sla with warningEmittedAt := some at_ } sla.rowVersion
  emitOutbox warned .slaWarning (outboxPayload warned)
    ("sla:" ++ uuidText warned.ticketSlaId ++ ":warning")
  return warned

/-- `_breach`. -/
def breach (sla : TicketSla) (at_ : Instant) : RowTransaction TicketSla := do
  if sla.state = .breached then
    return sla
  if !(← recordEvent .breached at_ .breach [("target_at", .str (isoformat sla.targetAt))]) then
    return sla
  let breached ← save { sla with
    state := .breached
    breachedAt := some at_
    remainingWorkingSeconds := 0
    lastCalculatedAt := at_ } sla.rowVersion
  emitOutbox breached .slaBreached (outboxPayload breached)
    ("sla:" ++ uuidText breached.ticketSlaId ++ ":breach")
  return breached

/-- `_pause`. -/
def pause (config : SlaConfig) (sla : TicketSla) (at_ : Instant) (event : SlaInputEvent)
    (reason : String) : RowTransaction TicketSla := do
  if sla.state ≠ .running then
    return sla
  let current ← calculated config sla at_
  let paused := { current with state := .paused, pausedAt := some at_ }
  if !(← recordEvent .paused at_ (.input event.outboxEventId .paused sla.ticketSlaId)
      [("reason", .str reason),
       ("remaining_working_seconds", .int paused.remainingWorkingSeconds)]) then
    return sla
  save paused sla.rowVersion

/-- `_resume`. -/
def resume (config : SlaConfig) (sla : TicketSla) (at_ : Instant) (event : SlaInputEvent)
    (reason : String) : RowTransaction TicketSla := do
  match sla.state, sla.pausedAt with
  | .paused, some pausedAt =>
      let calendar ← goalCalendar config sla.goal
      let targetAt ← calendar.addBusinessSeconds at_ sla.remainingWorkingSeconds
      let warningAt ← remainingWarningAt calendar at_ sla
      let resumed := { sla with
        state := .running
        pausedAt := none
        accumulatedPauseSeconds :=
          sla.accumulatedPauseSeconds + max 0 (wholeSeconds (at_ - pausedAt))
        targetAt := targetAt
        warningAt := warningAt
        lastCalculatedAt := at_ }
      if !(← recordEvent .resumed at_ (.input event.outboxEventId .resumed sla.ticketSlaId)
          [("reason", .str reason), ("target_at", .str (isoformat targetAt))]) then
        return sla
      save resumed sla.rowVersion
  | _, _ => return sla

/-- The end of `_complete`: `sla` is the row as it was read, `current` as it stands
    after the overrun check. -/
def stop (sla current : TicketSla) (at_ : Instant) (event : SlaInputEvent) (reason : String) :
    RowTransaction TicketSla := do
  let completed := { current with
    state := if current.state = .breached then .breached else .completed
    completedAt := some at_
    pausedAt := none
    lastCalculatedAt := at_ }
  if !(← recordEvent .stopped at_ (.input event.outboxEventId .stopped sla.ticketSlaId)
      [("reason", .str reason),
       ("elapsed_working_seconds", .int completed.elapsedWorkingSeconds)]) then
    return sla
  let saved ← save completed current.rowVersion
  if saved.state = .completed then
    let _ ← recordEvent .met at_ (.input event.outboxEventId .met sla.ticketSlaId)
      [("reason", .str reason), ("remaining_working_seconds", .int saved.remainingWorkingSeconds)]
  return saved

/-- `_complete`. -/
def complete (config : SlaConfig) (sla : TicketSla) (at_ : Instant) (event : SlaInputEvent)
    (reason : String) : RowTransaction TicketSla := do
  if sla.completedAt.isSome ∨ sla.state = .cancelled ∨ sla.state = .pending then
    return sla
  let current ← calculated config sla at_
  if current.state = .running ∧ current.remainingWorkingSeconds ≤ 0 then
    stop sla (← breach current at_) at_ event reason
  else
    stop sla current at_ event reason

/-- `_reopen`. -/
def reopen (config : SlaConfig) (sla : TicketSla) (at_ : Instant) (event : SlaInputEvent) :
    RowTransaction TicketSla := do
  if sla.state ≠ .completed then
    return sla
  let calendar ← goalCalendar config sla.goal
  let remaining := max 0 (sla.goal.targetSeconds - sla.elapsedWorkingSeconds)
  if remaining = 0 then
    breach { sla with completedAt := none } at_
  else
    let targetAt ← calendar.addBusinessSeconds at_ remaining
    let warningAt ← remainingWarningAt calendar at_
      { sla with remainingWorkingSeconds := remaining }
    let reopened := { sla with
      state := .running
      completedAt := none
      remainingWorkingSeconds := remaining
      targetAt := targetAt
      warningAt := warningAt
      lastCalculatedAt := at_ }
    if !(← recordEvent .resumed at_ (.input event.outboxEventId .reopened sla.ticketSlaId)
        [("reason", .str "TICKET_REOPENED"), ("target_at", .str (isoformat targetAt))]) then
      return sla
    save reopened sla.rowVersion

/-- The body of the loop of `_priority_changed`. -/
def recalculate (config : SlaConfig) (ticket : TicketFacts) (event : SlaInputEvent)
    (sla : TicketSla) : RowTransaction Unit := do
  if sla.state = .cancelled ∨ sla.state = .completed ∨ sla.state = .breached then
    return
  let at_ := event.occurredAt
  let current ← calculated config sla at_
  let goal ← selectGoal config sla.definition ticket at_
  let calendar ← goalCalendar config goal
  let remaining := max 0 (goal.targetSeconds - current.elapsedWorkingSeconds)
  let targetAt ← calendar.addBusinessSeconds at_ remaining
  let warningAt ← remainingWarningAt calendar at_
    { current with goal := goal, remainingWorkingSeconds := remaining }
  let changed := { current with
    goal := goal
    remainingWorkingSeconds := remaining
    targetAt := targetAt
    warningAt := warningAt
    lastCalculatedAt := at_ }
  if !(← recordEvent .recalculated at_ (.input event.outboxEventId .recalculated sla.ticketSlaId)
      [("old_sla_goal_version_id", .str (uuidText sla.goal.slaGoalVersionId)),
       ("new_sla_goal_version_id", .str (uuidText goal.slaGoalVersionId)),
       ("business_calendar_version_id", .str (uuidText goal.businessCalendarVersionId))]) then
    return
  let saved ← save changed sla.rowVersion
  if saved.state = .running ∧ remaining = 0 then
    let _ ← breach saved at_

/-- What a workflow transition asks of one row. -/
inductive TransitionAction where
  | complete (at_ : Instant) (reason : String)
  | reopen
  | pause (reason : String)
  | resume (reason : String)
  | nothing
  deriving DecidableEq, Repr

/-- The decisions in the loop of `_transition`, in their order. -/
def transitionAction (ticket : TicketFacts) (event : SlaInputEvent)
    (fromCategory toCategory toStatus : String) (sla : TicketSla) :
    Except Failure TransitionAction :=
  match sla.definition.metric with
  | .firstResponse =>
      match ticket.firstResponseAt with
      | some respondedAt =>
          if sla.state = .running ∨ sla.state = .paused then
            .ok (.complete respondedAt "FIRST_RESPONSE_RECORDED")
          else .ok .nothing
      | none => .ok .nothing
  | .resolution =>
      if fromCategory = "DONE" ∧ toCategory ≠ "DONE" then .ok .reopen
      else if toCategory = "DONE" then .ok (.complete event.occurredAt "RESOLVED")
      else do
        if (← pauseStatuses sla.definition.pauseConditions).contains toStatus then
          return .pause toStatus
        else if sla.state = .paused then
          return .resume toStatus
        else
          return .nothing

/-- The body of the loop of `_transition`. -/
def transitionRow (config : SlaConfig) (ticket : TicketFacts) (event : SlaInputEvent)
    (fromCategory toCategory toStatus : String) (sla : TicketSla) : RowTransaction Unit := do
  match ← transitionAction ticket event fromCategory toCategory toStatus sla with
  | .complete at_ reason =>
      let _ ← complete config sla at_ event reason
  | .reopen =>
      let _ ← reopen config sla event.occurredAt event
  | .pause reason =>
      let _ ← pause config sla event.occurredAt event reason
  | .resume reason =>
      let _ ← resume config sla event.occurredAt event reason
  | .nothing => return

/-- The warning in the loop of `evaluate_due`. -/
def warnIfDue (current : TicketSla) (dueAt : Instant) : RowTransaction TicketSla :=
  if current.warningEmittedAt = none ∧
      current.goal.warningSeconds.any (current.remainingWorkingSeconds ≤ ·) then
    warning current dueAt
  else return current

/-- The body of the loop of `evaluate_due`. -/
def dueRow (config : SlaConfig) (dueAt : Instant) (sla : TicketSla) : RowTransaction Unit := do
  let current ← warnIfDue (← advance config sla dueAt) dueAt
  if current.remainingWorkingSeconds ≤ 0 ∧ current.state = .running then
    let _ ← breach current dueAt

/-- The end of the loop of `_start`, on the row just created. -/
def startRow (config : SlaConfig) (ticket : TicketFacts) (event : SlaInputEvent)
    (sla : TicketSla) : RowTransaction Unit := do
  let effectiveAt := ticket.createdAt
  let _ ← recordEvent .started effectiveAt (.started event.outboxEventId)
    [("sla_definition_version_id", .str (uuidText sla.definition.slaDefinitionVersionId)),
     ("sla_goal_version_id", .str (uuidText sla.goal.slaGoalVersionId)),
     ("business_calendar_version_id", .str (uuidText sla.goal.businessCalendarVersionId)),
     ("target_at", .str (isoformat sla.targetAt))]
  match sla.definition.metric, ticket.firstResponseAt, ticket.resolvedAt with
  | .firstResponse, some respondedAt, _ =>
      let _ ← complete config sla respondedAt event "ALREADY_RESPONDED"
  | .resolution, _, some resolvedAt =>
      let _ ← complete config sla resolvedAt event "ALREADY_RESOLVED"
  | _, _, _ =>
      if (← pauseStatuses sla.definition.pauseConditions).contains ticket.statusCode then
        let _ ← pause config sla effectiveAt event ticket.statusCode

/-! ## 3. The store -/

abbrev StoreTransaction := Transaction Store Failure

/-- One row's transaction run on its record. -/
def onRow (op : TicketSla → RowTransaction Unit) (record : SlaRecord) : Except Failure SlaRecord := do
  let (_, record) ← (op record.row).run record
  return record

/-- The record of a selected row after the row's transaction; the others stay. -/
def onSelected (selected : TicketSla → Bool) (op : TicketSla → RowTransaction Unit)
    (record : SlaRecord) : Except Failure SlaRecord :=
  if selected record.row then onRow op record else .ok record

/-- `for sla in rows`: the selected rows one after the other, each on its record. -/
def forRows (selected : TicketSla → Bool) (op : TicketSla → RowTransaction Unit) :
    StoreTransaction Unit := do
  let store ← get
  let records ← (store.records.mapM (onSelected selected op) : Except Failure _)
  set { store with records := records }

/-- The body of the loop of `_start`, up to `create_sla`; an existing row of the
    definition ends it (`ON CONFLICT DO NOTHING`). -/
def startDefinition (ticket : TicketFacts) (event : SlaInputEvent)
    (definition : SlaDefinitionVersion) : StoreTransaction Unit := do
  let store ← get
  let effectiveAt := ticket.createdAt
  let goal ← selectGoal store.config definition ticket effectiveAt
  let calendar ← goalCalendar store.config goal
  let targetAt ← calendar.addBusinessSeconds effectiveAt goal.targetSeconds
  let warningAt ← warningAt calendar effectiveAt goal
  if store.hasSla ticket.ticketId definition.slaDefinitionId then
    return
  let created := SlaRecord.created <| SlaRecord.createdSla store.nextSlaId ticket definition goal
    effectiveAt targetAt warningAt
  let record ← onRow (startRow store.config ticket event) created
  set { store with records := store.records ++ [record], nextSlaId := store.nextSlaId + 1 }

/-- `_start`. -/
def start (ticket : TicketFacts) (event : SlaInputEvent) : StoreTransaction Unit := do
  let store ← get
  let definitions := store.config.definitions ticket.tenantId ticket.projectId ticket.createdAt
  if ¬ (definitions.map (·.slaDefinitionId)).Nodup then
    throw (.configuration "Published SLA definition versions overlap.")
  definitions.forM (startDefinition ticket event)

/-- The body of the loop of `_complete_metric`. -/
def metricRow (config : SlaConfig) (metric : SlaMetric) (event : SlaInputEvent) (sla : TicketSla) :
    RowTransaction Unit := do
  if sla.definition.metric = metric then
    let _ ← complete config sla event.occurredAt event event.eventType.text

/-- `_complete_metric`. -/
def completeMetric (ticket : TicketFacts) (metric : SlaMetric) (event : SlaInputEvent) :
    StoreTransaction Unit := do
  let store ← get
  forRows (Store.ofTicket ticket.tenantId ticket.ticketId) (metricRow store.config metric event)

/-- `_transition`. -/
def transition (ticket : TicketFacts) (event : SlaInputEvent) : StoreTransaction Unit := do
  let store ← get
  let fromStatus ← requiredString event.payload "from_status"
  let toStatus ← requiredString event.payload "to_status"
  match store.statusCategory ticket.ticketId fromStatus,
      store.statusCategory ticket.ticketId toStatus with
  | some fromCategory, some toCategory =>
      forRows (Store.ofTicket ticket.tenantId ticket.ticketId)
        (transitionRow store.config ticket event fromCategory toCategory toStatus)
  | _, _ => throw (.configuration "Workflow event references an unknown status.")

/-- `_priority_changed`. -/
def priorityChanged (ticket : TicketFacts) (event : SlaInputEvent) : StoreTransaction Unit := do
  let store ← get
  forRows (Store.ofTicket ticket.tenantId ticket.ticketId)
    (recalculate store.config ticket event)

/-- `_SUPPORTED_INPUT_EVENTS`. -/
def SlaInputEventType.supported : SlaInputEventType → Bool
  | .other _ => false
  | _ => true

/-- The branches of `process`. -/
def dispatch (ticket : TicketFacts) (event : SlaInputEvent) : StoreTransaction Unit :=
  match event.eventType with
  | .startSla => start ticket event
  | .agentPublicResponseAdded => do
      modify fun s => s.markFirstResponse event.tenantId event.ticketId event.occurredAt
      completeMetric ticket .firstResponse event
  | .ticketWorkflowTransitioned => transition ticket event
  | .ticketPriorityChanged => priorityChanged ticket event
  -- comments of the customer change neither of the two metrics
  | .customerCommentAdded => return
  | .other _ => return

/-- `process`. -/
def process (event : SlaInputEvent) : StoreTransaction Unit := do
  if ¬ event.eventType.supported then
    throw (.value "Unsupported SLA input event.")
  let store ← get
  match store.ticket event.tenantId event.ticketId with
  | none => throw (.configuration "SLA input references an unavailable ticket.")
  | some ticket => dispatch ticket event

/-- The rows `due_slas` returns, found again by their ids. -/
def scanned (store : Store) (tenantId : Uuid) (dueAt : Instant) (limit : Nat) (sla : TicketSla) :
    Bool :=
  Store.isDue tenantId dueAt sla &&
    (store.dueSlas tenantId dueAt limit).any fun due => due.ticketSlaId = sla.ticketSlaId

/-- `evaluate_due`: the number of rows it looked at. -/
def evaluateDue (tenantId : Uuid) (dueAt : Instant) (limit : Nat) : StoreTransaction Nat := do
  let store ← get
  forRows (scanned store tenantId dueAt limit) (dueRow store.config dueAt)
  return (store.dueSlas tenantId dueAt limit).length

end Helpdesk.Sla
