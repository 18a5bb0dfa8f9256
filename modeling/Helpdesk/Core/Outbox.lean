/-
  File:      Helpdesk/Core/Outbox.lean
  Subject:   The table `integration.outbox_event`.

  Producers insert events in the transaction of the change they report; workers
  claim them later. A second event with the same tenant, type and deduplication
  key violates `outbox_deduplication_ux`, a second one of the three that announce
  a new ticket violates `outbox_ticket_creation_event_ux`.
-/
import Helpdesk.Python.Datetime
import Helpdesk.Python.Json
import Helpdesk.Python.Uuid

namespace Helpdesk.Core

open Helpdesk.Python

inductive OutboxStatus where
  | pending | processing | processed | failed | deadLetter
  deriving DecidableEq, Repr

/-- The deduplication keys producers write; `text` is the column's value. -/
inductive DeduplicationKey where
  | comment (commentId : Uuid) (eventType : String)
  | notifyStatus (transitionId ticketId : Uuid) (rowVersion : Nat)
  | approvalWorkflow (approvalId : Uuid)
  | approvalFact (eventType : String) (approvalId : Uuid) (rowVersion : Nat)
  | other (text : String)
  deriving DecidableEq, Repr

def DeduplicationKey.text : DeduplicationKey → String
  | comment commentId eventType => "comment:" ++ uuidText commentId ++ ":" ++ eventType
  | notifyStatus transitionId ticketId rowVersion =>
      "notify-status:" ++ uuidText transitionId ++ ":" ++ uuidText ticketId ++ ":" ++
        toString rowVersion
  | approvalWorkflow approvalId => "approval-workflow:" ++ uuidText approvalId
  | approvalFact eventType approvalId rowVersion =>
      eventType ++ ":" ++ uuidText approvalId ++ ":" ++ toString rowVersion
  | other text => text

structure OutboxEvent where
  outboxEventId : Uuid
  tenantId : Option Uuid
  aggregateType : String
  aggregateId : String
  eventType : String
  payload : List (String × Json)
  statusCode : OutboxStatus := .pending
  availableAt : Instant
  retryCount : Nat := 0
  lastError : Option String := none
  createdAt : Instant
  deduplicationKey : Option DeduplicationKey := none

namespace OutboxEvent

/-- `outbox_deduplication_ux`: a null tenant counts as the zero UUID, a null key
    conflicts with nothing. -/
def sameKey (a b : OutboxEvent) : Bool :=
  a.tenantId.getD 0 = b.tenantId.getD 0 && a.eventType = b.eventType && a.deduplicationKey.isSome &&
    a.deduplicationKey = b.deduplicationKey

/-- `outbox_ticket_creation_event_ux`; null tenants are distinct. -/
def sameCreation (a b : OutboxEvent) : Bool :=
  a.tenantId.isSome && a.tenantId = b.tenantId && a.aggregateType = "TICKET" &&
    b.aggregateType = "TICKET" && a.aggregateId = b.aggregateId && a.eventType = b.eventType &&
    ["ROUTE_TICKET", "START_SLA", "NOTIFY_TICKET_CREATED"].contains a.eventType

/-- The unique indexes of the table, for a new event beside the ones that are there. -/
def conflicts (events : List OutboxEvent) (event : OutboxEvent) : Bool :=
  events.any fun e => sameKey event e || sameCreation event e

/-- `INSERT ... ON CONFLICT DO NOTHING`. -/
def insertOrIgnore (events : List OutboxEvent) (event : OutboxEvent) : List OutboxEvent :=
  if conflicts events event then events else events ++ [event]

/-- An event of another type, tenant or key does not stand in the way of a new one. -/
theorem not_conflicts {events : List OutboxEvent} {event : OutboxEvent}
    (hkey : ∀ e ∈ events, sameKey event e = false)
    (htype : event.eventType ∉ ["ROUTE_TICKET", "START_SLA", "NOTIFY_TICKET_CREATED"]) :
    conflicts events event = false := by
  have hcreation : ∀ e, sameCreation event e = false := by
    intro e
    have hno : ["ROUTE_TICKET", "START_SLA", "NOTIFY_TICKET_CREATED"].contains event.eventType =
        false := by simpa using htype
    rw [sameCreation, hno, Bool.and_false]
  rw [conflicts, List.any_eq_false]
  intro e he
  rw [hkey e he, hcreation]
  decide

end OutboxEvent

end Helpdesk.Core
