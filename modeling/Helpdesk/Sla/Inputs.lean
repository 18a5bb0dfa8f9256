/-
  File:      Helpdesk/Sla/Inputs.lean
  Subject:   Outbox events as inputs of the engine (`_claim_event` of
             apps/worker/worker/sla_worker.py), and what the first response does.

  * `slaInput`: the input the worker makes of a claimed event;
  * `process_response`: an `AGENT_PUBLIC_RESPONSE_ADDED` input that is delivered
    for the first time completes every open first-response row of its ticket at
    the time of the event.
-/
import Helpdesk.Core.Outbox
import Helpdesk.Sla.Runs

namespace Helpdesk.Sla

open Helpdesk.Python Helpdesk.Core Json

/-! ## 1. Claimed events -/

def SlaInputEventType.ofText : String → SlaInputEventType
  | "START_SLA" => .startSla
  | "AGENT_PUBLIC_RESPONSE_ADDED" => .agentPublicResponseAdded
  | "CUSTOMER_COMMENT_ADDED" => .customerCommentAdded
  | "TICKET_WORKFLOW_TRANSITIONED" => .ticketWorkflowTransitioned
  | "TICKET_PRIORITY_CHANGED" => .ticketPriorityChanged
  | eventType => .other eventType

/-- The input of a claimed event: the ticket is the payload's, or the aggregate. -/
def slaInput (event : OutboxEvent) : Except Failure SlaInputEvent :=
  match event.tenantId with
  | none => .error (.value "SLA outbox event must be tenant-scoped")
  | some tenantId =>
      match uuid? (((lookup "ticket_id" event.payload).map pyStr).getD event.aggregateId) with
      | none => .error (.value "badly formed hexadecimal UUID string")
      | some ticketId => .ok {
          outboxEventId := event.outboxEventId
          tenantId := tenantId
          ticketId := ticketId
          eventType := .ofText event.eventType
          payload := event.payload
          occurredAt := event.createdAt }

/-! ## 2. The first response -/

variable {config : SlaConfig} {s s' : Store} {r r' : SlaRecord} {event : SlaInputEvent}

/-- A stop that is recorded for the first time sets the completion time. -/
theorem stop_completedAt {sla current x : TicketSla} {at_ : Instant} {reason : String}
    (hnew : r.hasKey (.input event.outboxEventId .stopped sla.ticketSlaId) = false)
    (h : (stop sla current at_ event reason).run r = .ok (x, r')) :
    r'.row.completedAt = some at_ := by
  unfold stop at h
  rcases recordGuard_ok h with ⟨hkey, _⟩ | ⟨_, h⟩
  · rw [hnew] at hkey
    cases hkey
  · rw [Transaction.bind_eq_ok] at h
    obtain ⟨saved, r₁, hsave, h⟩ := h
    obtain ⟨_, hr₁, _⟩ := save_ok hsave
    have hat : r₁.row.completedAt = some at_ := by
      rw [hr₁]
      rfl
    split at h
    · rw [Transaction.bind_eq_ok] at h
      obtain ⟨_, r₂, hmet, h⟩ := h
      obtain ⟨_, rfl⟩ := Transaction.pure_eq_ok.mp h
      rw [recordEvent_once hmet, SlaRecord.recordOnce_row]
      exact hat
    · obtain ⟨_, rfl⟩ := Transaction.pure_eq_ok.mp h
      exact hat

/-- A breach does not stand in the way of the stop that follows it. -/
theorem breach_hasKey {sla x : TicketSla} {at_ : Instant} {key : EventKey} (hkey : key ≠ .breach)
    (h : (breach sla at_).run r = .ok (x, r')) : r'.hasKey key = r.hasKey key := by
  rcases breach_ok h with ⟨_, rfl, rfl⟩ | ⟨_, _, _, _, data, message, _, rfl⟩
  · rfl
  · rw [SlaRecord.hasKey_emit, SlaRecord.hasKey_put, SlaRecord.hasKey_addEvent]
    have hne : ¬ EventKey.breach = key := fun h => hkey h.symm
    simp [hne]

/-- **An open row is completed at the time it is told.** -/
theorem complete_completedAt {x : TicketSla} {at_ : Instant} {reason : String}
    (hopen : r.row.completedAt = none)
    (hstate : r.row.state ≠ .cancelled ∧ r.row.state ≠ .pending)
    (hnew : r.hasKey (.input event.outboxEventId .stopped r.row.ticketSlaId) = false)
    (h : (complete config r.row at_ event reason).run r = .ok (x, r')) :
    r'.row.completedAt = some at_ := by
  unfold complete at h
  have hgo : ¬ (r.row.completedAt.isSome ∨ r.row.state = .cancelled ∨ r.row.state = .pending) := by
    rw [hopen]
    simpa using hstate
  rw [if_neg hgo, Transaction.lift_bind_eq_ok] at h
  obtain ⟨current, _, h⟩ := h
  split at h
  · rw [Transaction.bind_eq_ok] at h
    obtain ⟨breached, r₁, hbreach, h⟩ := h
    refine stop_completedAt ?_ h
    rw [breach_hasKey EventKey.noConfusion hbreach]
    exact hnew
  · exact stop_completedAt hnew h

/-- The first-response rows of a ticket that are still open, and that the event has
    not been delivered to. -/
def AwaitsResponse (event : SlaInputEvent) (r : SlaRecord) : Prop :=
  Store.ofTicket event.tenantId event.ticketId r.row = true ∧
    r.row.definition.metric = .firstResponse ∧ r.row.completedAt = none ∧
    (r.row.state ≠ .cancelled ∧ r.row.state ≠ .pending) ∧
    r.hasKey (.input event.outboxEventId .stopped r.row.ticketSlaId) = false

/-- **The response completes the first-response rows of its ticket**, at the time of
    the event. -/
theorem process_response {u : Unit} (htype : event.eventType = .agentPublicResponseAdded)
    (h : (process event).run s = .ok (u, s')) :
    List.Forall₂ (fun r r' => AwaitsResponse event r → r'.row.completedAt = some event.occurredAt)
      s.records s'.records := by
  obtain ⟨_, ticket, hticket, h⟩ := process_dispatch h
  obtain ⟨htenant, hid⟩ := ticket_ids hticket
  unfold dispatch at h
  rw [htype] at h
  dsimp only at h
  rw [Transaction.bind_eq_ok] at h
  obtain ⟨_, s₁, hmark, h⟩ := h
  obtain rfl := Transaction.modify_eq_ok.mp hmark
  unfold completeMetric at h
  rw [Transaction.get_bind] at h
  obtain ⟨_, hrows⟩ := forRows_ok h
  refine hrows.imp ?_
  rintro r r' hr ⟨hof, hmetric, hopen, hstate, hnew⟩
  rw [htenant, hid] at hr
  rcases hr with ⟨_, u, hrun⟩ | ⟨hother, _⟩
  · unfold metricRow at hrun
    rw [if_pos hmetric, Transaction.bind_eq_ok] at hrun
    obtain ⟨x, r₁, hcomplete, hrun⟩ := hrun
    obtain ⟨_, rfl⟩ := Transaction.pure_eq_ok.mp hrun
    exact complete_completedAt hopen hstate hnew hcomplete
  · rw [hof] at hother
    cases hother

end Helpdesk.Sla
