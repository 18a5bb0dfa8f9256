/-
  File:      Helpdesk/Notifications/Database.lean
  Subject:   The tables of the notification worker and the statements that claim and
             mark their rows (apps/worker/worker/notification_worker.py, alembic
             0011_notification_delivery).

  What the worker does at one time depends on the clock, on the rows other
  transactions hold and on what the database and the mail server answer; all of it
  is in `Env`.
-/
import Helpdesk.Core.Outbox
import Helpdesk.Lib.Fallible
import Helpdesk.Sla.Repository
import Helpdesk.Tickets.Database

namespace Helpdesk.Notifications

open Helpdesk.Python Helpdesk.Core

/-! ## 1. Rows -/

/-- A row of `itsm.ticket` joined with its status. -/
structure TicketRow where
  ticketId : Uuid
  tenantId : Uuid
  ticketKey : String
  statusCode : String
  statusName : String
  reporterUserId : Uuid
  requestedForUserId : Option Uuid
  assigneeUserId : Option Uuid
  deriving DecidableEq, Repr

structure UserRecord where
  userId : Uuid
  tenantId : Uuid
  displayName : String
  emailAddress : String
  activeFlag : Bool
  deriving DecidableEq, Repr

/-- A row of `notification_template` joined with one of its versions. -/
structure TemplateRow where
  tenantId : Option Uuid
  templateCode : String
  activeFlag : Bool
  versionId : Uuid
  versionNumber : Nat
  versionStatus : Sla.VersionStatus
  channelCode : String
  subject : Option String
  body : String
  contentType : String
  effectiveFrom : Option Instant
  effectiveTo : Option Instant
  deriving DecidableEq, Repr

inductive DeliveryStatus where
  | pending | sending | delivered | failed | cancelled
  deriving DecidableEq, Repr

/-- A row of `notification_delivery`. -/
structure Delivery where
  deliveryId : Uuid
  tenantId : Uuid
  versionId : Uuid
  resourceId : Uuid
  recipientReference : String
  recipientUserId : Uuid
  outboxEventId : Uuid
  channelCode : String
  deduplicationKey : String
  renderedSubject : String
  renderedBody : String
  deliveryStatus : DeliveryStatus := .pending
  attemptCount : Nat := 0
  providerMessageId : Option String := none
  lastError : Option String := none
  finalFailure : Bool := false
  nextAttemptAt : Instant
  createdAt : Instant
  lockedAt : Option Instant := none
  deliveredAt : Option Instant := none
  deriving DecidableEq, Repr

inductive Outcome where
  | delivered | retryableFailure | permanentFailure
  deriving DecidableEq, Repr

/-- A row of `notification_delivery_attempt`. -/
structure DeliveryAttempt where
  deliveryId : Uuid
  attemptNumber : Nat
  outcome : Outcome
  providerMessageId : Option String
  errorCode : Option String
  deriving DecidableEq, Repr

/-- A row of `in_app_notification`. -/
structure InAppNotification where
  tenantId : Uuid
  recipientUserId : Uuid
  versionId : Uuid
  outboxEventId : Uuid
  resourceId : Uuid
  title : String
  body : String
  actionUrl : String
  deriving DecidableEq, Repr

structure Store where
  outbox : List OutboxEvent
  tickets : List TicketRow
  users : List UserRecord
  approvers : List Tickets.TicketApprover
  templates : List TemplateRow
  deliveries : List Delivery
  attempts : List DeliveryAttempt
  inApp : List InAppNotification
  /-- the supply that stands for `gen_random_uuid()` -/
  nextId : Uuid

/-! ## 2. The worker's surroundings -/

structure WorkerSettings where
  workerMaxAttempts : Nat
  attempts_bounds : 1 ≤ workerMaxAttempts ∧ workerMaxAttempts ≤ 20

/-- What `EmailSender.send` does: it returns the provider's id, or raises
    `PermanentNotificationError` or another exception. -/
inductive SendResult where
  | sent (providerId : String)
  | permanent
  | raised (errorName : String)
  deriving DecidableEq, Repr

/-- The surroundings of one call of `process_one`. -/
structure Env where
  /-- `clock_timestamp()` -/
  now : Instant
  /-- the rows other transactions have locked, which the claims skip -/
  lockedEvents : List Uuid
  lockedDeliveries : List Uuid
  /-- the exception a statement of the planning fails with, if one does -/
  fault : Option String
  /-- what the mail server makes of a message -/
  send : String → String → String → SendResult

/-- The exceptions of `plan_one`: the one it tells apart, and the others by name. -/
inductive NotificationError where
  | permanent (message : String)
  | other (errorName : String)
  deriving DecidableEq, Repr

/-- `type(error).__name__`. -/
def NotificationError.name : NotificationError → String
  | permanent _ => "PermanentNotificationError"
  | other errorName => errorName

def NotificationError.final : NotificationError → Bool
  | permanent _ => true
  | other _ => false

/-! ## 3. Claims -/

/-- `_EVENT_TYPES`. -/
def eventTypes : List String :=
  ["NOTIFY_TICKET_CREATED", "NOTIFY_TICKET_ASSIGNED", "NOTIFY_AGENT_PUBLIC_RESPONSE_ADDED",
   "NOTIFY_CUSTOMER_COMMENT_ADDED", "NOTIFY_STATUS_CHANGED", "APPROVAL_REQUESTED",
   "APPROVAL_DECIDED", "APPROVAL_CANCELLED", "APPROVAL_EXPIRED", "SLA_WARNING", "SLA_BREACHED"]

/-- The `WHERE` of `_claim_event`. -/
def claimable (env : Env) (event : OutboxEvent) : Bool :=
  (event.statusCode = .pending || event.statusCode = .failed) && event.availableAt ≤ env.now &&
    eventTypes.contains event.eventType && !env.lockedEvents.contains event.outboxEventId

/-- `ORDER BY created_at,outbox_event_id`. -/
def claimOrder (a b : OutboxEvent) : Prop :=
  a.createdAt < b.createdAt ∨ a.createdAt = b.createdAt ∧ a.outboxEventId ≤ b.outboxEventId

instance : DecidableRel claimOrder := fun _ _ => inferInstanceAs (Decidable (_ ∨ _))

/-- The row of `candidate` in `_claim_event`. -/
def candidate (env : Env) (store : Store) : Option OutboxEvent :=
  ((store.outbox.filter (claimable env)).insertionSort claimOrder).head?

/-- `UPDATE integration.outbox_event SET ... WHERE outbox_event_id=:event_id AND ...`. -/
def Store.updateEvent (store : Store) (eventId : Uuid) (selected : OutboxEvent → Bool)
    (change : OutboxEvent → OutboxEvent) : Store :=
  { store with
    outbox := store.outbox.map fun e =>
      if e.outboxEventId = eventId && selected e then change e else e }

/-- The `WHERE` of `_claim_delivery`; a comparison with a null `locked_at` is not
    true. -/
def deliverable (env : Env) (delivery : Delivery) : Bool :=
  !delivery.finalFailure &&
    (((delivery.deliveryStatus = .pending || delivery.deliveryStatus = .failed) &&
        delivery.nextAttemptAt ≤ env.now) ||
      (delivery.deliveryStatus = .sending &&
        delivery.lockedAt.any (· < env.now - 5 * 60 * second))) &&
    !env.lockedDeliveries.contains delivery.deliveryId

/-- `ORDER BY next_attempt_at,created_at,notification_delivery_id`. -/
def deliveryOrder (a b : Delivery) : Prop :=
  a.nextAttemptAt < b.nextAttemptAt ∨ a.nextAttemptAt = b.nextAttemptAt ∧
    (a.createdAt < b.createdAt ∨ a.createdAt = b.createdAt ∧ a.deliveryId ≤ b.deliveryId)

instance : DecidableRel deliveryOrder := fun _ _ => inferInstanceAs (Decidable (_ ∨ _))

/-- The row of `candidate` in `_claim_delivery`. -/
def deliveryCandidate (env : Env) (store : Store) : Option Delivery :=
  ((store.deliveries.filter (deliverable env)).insertionSort deliveryOrder).head?

/-- `UPDATE integration.notification_delivery` of one row. -/
def Store.updateDelivery (store : Store) (deliveryId : Uuid) (selected : Delivery → Bool)
    (change : Delivery → Delivery) : Store :=
  { store with
    deliveries := store.deliveries.map fun d =>
      if d.deliveryId = deliveryId && selected d then change d else d }

end Helpdesk.Notifications
