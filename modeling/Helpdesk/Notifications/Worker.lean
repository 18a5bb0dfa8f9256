/-
  File:      Helpdesk/Notifications/Worker.lean
  Subject:   The notification worker (apps/worker/worker/notification_worker.py).

  `plan_one` claims an event, plans its notifications and marks it processed in
  one transaction; an exception undoes all three, and `_fail_event` then runs in a
  transaction of its own. `deliver_one` claims a delivery, sends it and records
  the outcome, each on its own.
-/
import Helpdesk.Notifications.Database
import Helpdesk.Notifications.Rendering

namespace Helpdesk.Notifications

open Helpdesk.Python Helpdesk.Core Json

abbrev Planning := Transaction Store NotificationError

/-! ## 1. What is planned -/

/-- `_VARIABLES`. -/
def variables_ : List String :=
  ["ticket_key", "recipient_name", "event_name", "status_name", "action_url"]

/-- `_ticket_id`. -/
def ticketId (event : OutboxEvent) : Except NotificationError Uuid :=
  let value := match getD event.payload "ticket_id" with
    | .null => if event.aggregateType = "TICKET" then .str event.aggregateId else .null
    | value => value
  match uuid? (pyStr value) with
  | some ticketId => .ok ticketId
  | none => .error (.permanent "Notification event has no valid ticket ID.")

/-- `_template_code`. -/
def templateCode (eventType statusCode : String) : Except NotificationError String :=
  match eventType with
  | "NOTIFY_STATUS_CHANGED" =>
      if statusCode = "RESOLVED" then .ok "TICKET_RESOLVED"
      else if statusCode = "CLOSED" then .ok "TICKET_CLOSED"
      else .ok "STATUS_CHANGED"
  | "NOTIFY_TICKET_CREATED" => .ok "TICKET_CREATED"
  | "NOTIFY_TICKET_ASSIGNED" => .ok "TICKET_ASSIGNED"
  | "NOTIFY_AGENT_PUBLIC_RESPONSE_ADDED" => .ok "PUBLIC_COMMENT_ADDED"
  | "NOTIFY_CUSTOMER_COMMENT_ADDED" => .ok "PUBLIC_COMMENT_ADDED"
  | "APPROVAL_REQUESTED" => .ok "APPROVAL_REQUESTED"
  | "APPROVAL_DECIDED" => .ok "APPROVAL_DECIDED"
  | "APPROVAL_CANCELLED" => .ok "APPROVAL_DECIDED"
  | "APPROVAL_EXPIRED" => .ok "APPROVAL_DECIDED"
  | "SLA_WARNING" => .ok "SLA_WARNING"
  | "SLA_BREACHED" => .ok "SLA_BREACHED"
  | _ => .error (.permanent "Notification event type is unsupported.")

/-- `template_code.replace("_", " ").title()`, for the codes above. -/
def eventName (templateCode : String) : String :=
  let step (acc : List Char × Bool) (c : Char) : List Char × Bool :=
    if c = '_' then (acc.1 ++ [' '], true)
    else (acc.1 ++ [if acc.2 then c else lowerChar c], false)
  String.ofList (templateCode.toList.foldl step ([], true)).1

/-- The user a ticket event is for. -/
def ticketRecipient (event : OutboxEvent) (ticket : TicketRow) : Option Uuid :=
  if ["NOTIFY_TICKET_ASSIGNED", "NOTIFY_CUSTOMER_COMMENT_ADDED", "SLA_WARNING",
      "SLA_BREACHED"].contains event.eventType then ticket.assigneeUserId
  else some (ticket.requestedForUserId.getD ticket.reporterUserId)

/-- The user is the one who caused the event. -/
def isActor (event : OutboxEvent) (userId : Uuid) : Bool :=
  match getD event.payload "actor_user_id" with
  | .null => false
  | actor => uuidText userId = pyStr actor

/-- `_recipients`. -/
def recipients (store : Store) (tenantId : Uuid) (event : OutboxEvent) (ticket : TicketRow) :
    Except NotificationError (List UserRecord) :=
  if event.eventType = "APPROVAL_REQUESTED" then
    match uuid? event.aggregateId with
    | none => .error (.permanent "Approval event has no valid approval ID.")
    | some approvalId =>
        let open_ := store.approvers.filter fun approver => approver.tenantId = tenantId &&
          approver.approvalId = approvalId && approver.decision = none
        .ok (open_.flatMap fun approver => store.users.filter fun user =>
          user.userId = approver.approverUserId && user.tenantId = approver.tenantId &&
            user.activeFlag).eraseDups
  else
    match ticketRecipient event ticket with
    | none => .ok []
    | some userId =>
        if isActor event userId then .ok []
        else .ok (store.users.filter fun user =>
          user.tenantId = tenantId && user.userId = userId && user.activeFlag)

/-- `ORDER BY (template.tenant_id IS NOT NULL) DESC,version.version_number DESC`. -/
def templateOrder (a b : TemplateRow) : Prop :=
  (a.tenantId.isSome ∧ b.tenantId.isNone) ∨
    (a.tenantId.isSome = b.tenantId.isSome ∧ b.versionNumber ≤ a.versionNumber)

instance : DecidableRel templateOrder := fun _ _ => inferInstanceAs (Decidable (_ ∨ _))

/-- `_template`. -/
def template (store : Store) (now : Instant) (tenantId : Uuid) (code : String) :
    Except NotificationError TemplateRow :=
  let rows := store.templates.filter fun row =>
    row.templateCode = code && row.activeFlag &&
      (row.tenantId = some tenantId || row.tenantId = none) &&
      row.versionStatus = .published && Sla.effective row.effectiveFrom row.effectiveTo now
  match (rows.insertionSort templateOrder).head? with
  | some row => .ok row
  | none => .error (.permanent "Published notification template is missing.")

/-- The `values` of one recipient. -/
def values (ticket : TicketRow) (recipient : UserRecord) (eventName : String) :
    String → Option String
  | "ticket_key" => some ticket.ticketKey
  | "recipient_name" => some recipient.displayName
  | "event_name" => some eventName
  | "status_name" => some ticket.statusName
  | "action_url" => some ("/tickets/" ++ ticket.ticketKey)
  | _ => none

/-- `render_template`, with `UnsafeTemplate` turned into a permanent error. -/
def rendered (template : String) (values : String → Option String) (htmlContent : Bool) :
    Except NotificationError String :=
  match renderTemplate template values variables_ htmlContent with
  | .ok text => .ok text
  | .error error => .error (.permanent error.message)

/-- The checks of a template and the texts it gives. -/
def texts (row : TemplateRow) (channel : String) (values : String → Option String) :
    Except NotificationError (Option String × String) := do
  if row.channelCode ≠ channel then
    throw (.permanent "Notification template channel is inconsistent.")
  if row.contentType ≠ "TEXT" ∧ row.contentType ≠ "HTML" then
    throw (.permanent "Notification content type is unsupported.")
  let subject ← row.subject.mapM fun subject => rendered subject values false
  let body ← rendered row.body values (row.contentType = "HTML")
  return (subject, body)

/-- `INSERT INTO integration.notification_delivery ... ON CONFLICT DO NOTHING`. -/
def insertDelivery (delivery : Uuid → Delivery) : Planning Unit :=
  modify fun store =>
    let row := delivery store.nextId
    let store := { store with nextId := store.nextId + 1 }
    if store.deliveries.any fun d =>
        d.tenantId = row.tenantId && d.deduplicationKey = row.deduplicationKey then store
    else { store with deliveries := store.deliveries ++ [row] }

/-- `INSERT INTO integration.in_app_notification ... ON CONFLICT DO NOTHING`. -/
def insertInApp (row : InAppNotification) : Planning Unit :=
  modify fun store =>
    if store.inApp.any fun n => n.outboxEventId = row.outboxEventId &&
        n.recipientUserId = row.recipientUserId && n.versionId = row.versionId then store
    else { store with inApp := store.inApp ++ [row] }

/-- The two channels of one recipient in the loops of `_plan`. -/
def planChannel (now : Instant) (tenantId : Uuid) (event : OutboxEvent) (ticket : TicketRow)
    (code : String) (recipient : UserRecord) (channel : String) : Planning Unit := do
  let row ← template (← get) now tenantId (code ++ "_" ++ channel)
  let name := eventName code
  let (subject, body) ← texts row channel (values ticket recipient name)
  if channel = "EMAIL" then
    match subject with
    | none => throw (.permanent "Email template subject is required.")
    | some subject =>
        insertDelivery fun deliveryId => {
          deliveryId := deliveryId
          tenantId := tenantId
          versionId := row.versionId
          resourceId := ticket.ticketId
          recipientReference := recipient.emailAddress
          recipientUserId := recipient.userId
          outboxEventId := event.outboxEventId
          channelCode := "EMAIL"
          deduplicationKey := uuidText event.outboxEventId ++ ":" ++ uuidText recipient.userId ++
            ":" ++ uuidText row.versionId ++ ":" ++ channel
          renderedSubject := subject
          renderedBody := body
          nextAttemptAt := now
          createdAt := now }
  else
    insertInApp {
      tenantId := tenantId
      recipientUserId := recipient.userId
      versionId := row.versionId
      outboxEventId := event.outboxEventId
      resourceId := ticket.ticketId
      title := (subject.filter (· ≠ "")).getD name
      body := body
      actionUrl := "/tickets/" ++ ticket.ticketKey }

/-- `_plan`. -/
def plan (now : Instant) (tenantId : Uuid) (event : OutboxEvent) : Planning Unit := do
  let ticketId ← ticketId event
  let store ← get
  match store.tickets.find? fun t => t.tenantId = tenantId && t.ticketId = ticketId with
  | none => throw (.permanent "Notification ticket was not found.")
  | some ticket =>
      let code ← templateCode event.eventType ticket.statusCode
      let users ← recipients store tenantId event ticket
      if users = [] then
        throw (.permanent "Notification has no authorized active recipient.")
      users.forM fun recipient =>
        ["EMAIL", "PORTAL"].forM (planChannel now tenantId event ticket code recipient)

/-! ## 2. `plan_one` -/

/-- An exception with the `event_id` that is known when it is raised. -/
structure PlanningFailure where
  eventId : Option Uuid
  error : NotificationError
  deriving DecidableEq, Repr

/-- A part of the transaction in which `event_id` has one value. -/
def knowing {α : Type} (eventId : Option Uuid) (x : Planning α) :
    Transaction Store PlanningFailure α :=
  x.mapError fun error => ⟨eventId, error⟩

/-- `_claim_event`: the row, now `PROCESSING`, with its tenant. -/
def claimEvent (env : Env) : Planning (Option (Uuid × OutboxEvent)) := do
  let store ← get
  match candidate env store with
  | none => return none
  | some event =>
      set (store.updateEvent event.outboxEventId (fun _ => true)
        fun e => { e with statusCode := .processing })
      match event.tenantId with
      | none => throw (.permanent "Notification event must be tenant-scoped.")
      | some tenantId => return some (tenantId, event)

/-- A statement of the planning fails. -/
def raiseFault (env : Env) : Except NotificationError Unit :=
  match env.fault with
  | some errorName => .error (.other errorName)
  | none => .ok ()

/-- The planning of a claimed event and its `UPDATE ... SET status_code='PROCESSED'`. -/
def planClaimed (env : Env) (tenantId : Uuid) (event : OutboxEvent) : Planning Unit := do
  raiseFault env
  plan env.now tenantId event
  modify fun store => store.updateEvent event.outboxEventId (·.statusCode = .processing)
    fun e => { e with statusCode := .processed, lastError := none }

/-- The transaction of `plan_one`; it answers whether there was an event. -/
def planTransaction (env : Env) : Transaction Store PlanningFailure Bool := do
  match ← knowing none (claimEvent env) with
  | none => return false
  | some (tenantId, event) =>
      knowing (some event.outboxEventId) (planClaimed env tenantId event)
      return true

/-- The row `_fail_event` writes. -/
def failedEvent (settings : WorkerSettings) (now : Instant) (error : NotificationError)
    (e : OutboxEvent) : OutboxEvent :=
  { e with
    retryCount := e.retryCount + 1
    statusCode := if error.final ∨ settings.workerMaxAttempts ≤ e.retryCount + 1 then .deadLetter
      else .failed
    availableAt := now + min 300 (2 ^ e.retryCount) * second
    lastError := some (String.ofList (error.name.toList.take 100)) }

/-- `_fail_event`. -/
def failEvent (settings : WorkerSettings) (now : Instant) (failure : PlanningFailure)
    (store : Store) : Store :=
  match failure.eventId with
  | none => store
  | some eventId => store.updateEvent eventId (·.statusCode = .processing)
      (failedEvent settings now failure.error)

/-- `plan_one`. -/
def planOne (settings : WorkerSettings) (env : Env) (store : Store) : Bool × Store :=
  match (planTransaction env).run store with
  | .ok (handled, store') => (handled, store')
  | .error failure => (true, failEvent settings env.now failure store)

/-! ## 3. `deliver_one` -/

/-- `_claim_delivery`: the row, now `SENDING`. -/
def claimDelivery (env : Env) (store : Store) : Option (Delivery × Store) :=
  (deliveryCandidate env store).map fun delivery =>
    (delivery, store.updateDelivery delivery.deliveryId (fun _ => true)
      fun d => { d with deliveryStatus := .sending, lockedAt := some env.now })

/-- The row `_finish_delivery` writes, of what it knew when it was claimed. -/
def finishedDelivery (settings : WorkerSettings) (now : Instant) (claimed : Delivery)
    (outcome : Outcome) (providerId errorCode : Option String) (d : Delivery) : Delivery :=
  let nextCount := claimed.attemptCount + 1
  { d with
    deliveryStatus := if outcome = .delivered then .delivered else .failed
    attemptCount := nextCount
    providerMessageId := providerId
    lastError := errorCode
    finalFailure := outcome = .permanentFailure || settings.workerMaxAttempts ≤ nextCount
    nextAttemptAt := now + min 300 (2 ^ nextCount + claimed.deliveryId % 7 : Nat) * second
    deliveredAt := if outcome = .delivered then some now else none
    lockedAt := none }

/-- `_finish_delivery`. -/
def finishDelivery (settings : WorkerSettings) (now : Instant) (claimed : Delivery)
    (outcome : Outcome) (providerId errorCode : Option String) (store : Store) : Store :=
  let attempt : DeliveryAttempt :=
    ⟨claimed.deliveryId, claimed.attemptCount + 1, outcome, providerId, errorCode⟩
  let known := store.attempts.any fun a =>
    a.deliveryId = attempt.deliveryId && a.attemptNumber = attempt.attemptNumber
  let store := { store with
    attempts := if known then store.attempts else store.attempts ++ [attempt] }
  store.updateDelivery claimed.deliveryId (·.deliveryStatus = .sending)
    (finishedDelivery settings now claimed outcome providerId errorCode)

/-- `deliver_one`. -/
def deliverOne (settings : WorkerSettings) (env : Env) (store : Store) : Bool × Store :=
  match claimDelivery env store with
  | none => (false, store)
  | some (delivery, claimed) =>
      let finish := finishDelivery settings env.now delivery
      match env.send delivery.recipientReference delivery.renderedSubject
          delivery.renderedBody with
      | .sent providerId => (true, finish .delivered (some providerId) none claimed)
      | .permanent =>
          (true, finish .permanentFailure none (some "PermanentNotificationError") claimed)
      | .raised errorName => (true, finish .retryableFailure none (some errorName) claimed)

/-- `process_one`. -/
def processOne (settings : WorkerSettings) (env : Env) (store : Store) : Bool × Store :=
  match planOne settings env store with
  | (true, store') => (true, store')
  | (false, store') => deliverOne settings env store'

end Helpdesk.Notifications
