/-
  File:      Helpdesk/Tickets/Responses.lean
  Subject:   Which public comments of an analyst the SLA engine hears of.

  The engine completes the first-response rows of a ticket on
  `AGENT_PUBLIC_RESPONSE_ADDED`. The ticket API writes that event with every
  public comment of an analyst; the agent queue, and with it the copilot, writes
  only the notification.

  * `ticketComment_ok`, `queueComment_ok`: what a comment request writes;
  * `ResponseRecorded`: the one event of the comment, and what it does to the
    ticket's rows;
  * `response_recorded_iff`: it is written exactly on the path of the ticket API.
-/
import Helpdesk.Sla.Inputs
import Helpdesk.Workflow.Runs

namespace Helpdesk.Tickets

open Helpdesk.Python Helpdesk.Core Helpdesk.Workflow Json

variable {sha256 : String → String} {now : Instant} {context : RequestContext} {ticketKey : String}
variable {desk desk' : Desk}

/-! ## 1. What the requests write -/

/-- Neither a comment nor an event was written. -/
def Desk.Silent (desk desk' : Desk) : Prop :=
  desk'.comments = desk.comments ∧ desk'.outbox = desk.outbox

theorem commentableTicket_ok {tenantId userId : Uuid} {ticket : Ticket}
    (h : commentableTicket desk context tenantId userId ticketKey = .ok ticket) :
    ticket ∈ desk.tickets := by
  unfold commentableTicket at h
  split at h
  · rename_i own hown
    cases h
    exact List.mem_of_find?_eq_some hown
  · split at h
    · cases h
    · split at h
      · rename_i analyst hanalyst
        cases h
        exact List.mem_of_find?_eq_some hanalyst
      · cases h

/-- **The ticket API**: nothing for a replay, else the comment and its two events. -/
theorem ticketComment_ok (hvalid : desk.Valid) {command : PublicCommentCreateRequest}
    {key : String} {result : Option Uuid}
    (h : (ticketComment sha256 now context ticketKey command key).run desk = .ok (result, desk')) :
    desk.Silent desk' ∨ ∃ ticket ∈ desk.tickets, ∃ tenantId userId body,
      desk'.comments = desk.comments ++
        [⟨desk.nextId, ticket.ticketId, userId, .publicComment, body, "PORTAL", now⟩] ∧
      desk'.outbox = desk.outbox ++
        [commentEvent (desk.nextId + 1) now tenantId ticket.ticketId desk.nextId userId
          (slaEventType context),
         commentEvent (desk.nextId + 2) now tenantId ticket.ticketId desk.nextId userId
          ("NOTIFY_" ++ slaEventType context)] := by
  unfold ticketComment at h
  rw [Transaction.lift_bind_eq_ok] at h
  obtain ⟨⟨tenantId, userId⟩, _, h⟩ := h
  rw [Transaction.lift_bind_eq_ok] at h
  obtain ⟨_, _, h⟩ := h
  dsimp only at h
  rw [Transaction.guard_eq_ok, Transaction.get_bind, Transaction.lift_bind_eq_ok] at h
  obtain ⟨_, ticket, hticket, h⟩ := h
  rw [Transaction.bind_eq_ok] at h
  obtain ⟨idem, desk₁, hclaim, h⟩ := h
  obtain ⟨records, rfl⟩ := claimIdempotency_ok hclaim
  rw [Transaction.lift_bind_eq_ok] at h
  obtain ⟨_, _, h⟩ := h
  split at h
  · obtain ⟨_, rfl⟩ := Transaction.pure_eq_ok.mp h
    exact Or.inl ⟨rfl, rfl⟩
  · rw [Transaction.bind_eq_ok] at h
    obtain ⟨commentId, desk₂, hadd, h⟩ := h
    have hvalid₁ : Desk.Valid { desk with idempotency := records } :=
      ⟨hvalid.ticketIds, hvalid.ticketUuids, hvalid.ticketStatus, hvalid.commentKeys⟩
    obtain ⟨_, rfl⟩ := addPublicComment_ok hvalid₁ hadd
    rw [Transaction.bind_eq_ok] at h
    obtain ⟨_, desk₃, hcomplete, h⟩ := h
    obtain ⟨records', rfl⟩ := completeIdempotency_ok hcomplete
    obtain ⟨_, rfl⟩ := Transaction.pure_eq_ok.mp h
    exact Or.inr ⟨ticket, commentableTicket_ok hticket, tenantId, userId, _, rfl, rfl⟩

/-- **The agent queue**: nothing for a replay, else the comment and, when it is
    public, a notification. -/
theorem queueComment_ok (hvalid : desk.Valid) {command : AnalystCommentCreateRequest}
    {key : String} {result : TicketComment × Bool}
    (h : (queueComment sha256 now context ticketKey command key).run desk = .ok (result, desk')) :
    ∃ new, desk'.outbox = desk.outbox ++ new ∧
      ∀ e ∈ new, e.eventType = "NOTIFY_AGENT_PUBLIC_RESPONSE_ADDED" := by
  unfold queueComment at h
  rw [Transaction.lift_bind_eq_ok] at h
  obtain ⟨⟨tenantId, userId⟩, _, h⟩ := h
  rw [Transaction.lift_bind_eq_ok] at h
  obtain ⟨_, _, h⟩ := h
  rw [Transaction.lift_bind_eq_ok] at h
  obtain ⟨_, _, h⟩ := h
  dsimp only at h
  rw [Transaction.guard_eq_ok, Transaction.get_bind] at h
  obtain ⟨_, h⟩ := h
  split at h
  · rename_i ticket hticket
    rw [Transaction.bind_eq_ok] at h
    obtain ⟨idem, desk₁, hclaim, h⟩ := h
    obtain ⟨records, rfl⟩ := claimIdempotency_ok hclaim
    rw [Transaction.lift_bind_eq_ok] at h
    obtain ⟨_, _, h⟩ := h
    split at h
    · rw [Transaction.get_bind] at h
      split at h
      · exact (Transaction.throw_ne_ok.mp h).elim
      · obtain ⟨_, rfl⟩ := Transaction.pure_eq_ok.mp h
        exact ⟨[], (List.append_nil _).symm, fun e he => absurd he List.not_mem_nil⟩
    · rw [Transaction.bind_eq_ok] at h
      obtain ⟨commentId, desk₂, hadd, h⟩ := h
      have hvalid₁ : Desk.Valid { desk with idempotency := records } :=
        ⟨hvalid.ticketIds, hvalid.ticketUuids, hvalid.ticketStatus, hvalid.commentKeys⟩
      obtain ⟨_, _, _, _, houtbox, _⟩ := addComment_ok hvalid₁ hadd
      rw [Transaction.bind_eq_ok] at h
      obtain ⟨_, desk₃, hcomplete, h⟩ := h
      obtain ⟨records', rfl⟩ := completeIdempotency_ok hcomplete
      rw [Transaction.get_bind] at h
      split at h
      · exact (Transaction.throw_ne_ok.mp h).elim
      · obtain ⟨_, rfl⟩ := Transaction.pure_eq_ok.mp h
        refine ⟨_, houtbox, fun e he => ?_⟩
        split at he
        · rw [List.mem_singleton.mp he]
          rfl
        · exact absurd he List.not_mem_nil
  · exact (Transaction.throw_ne_ok.mp h).elim

theorem draftComment_ok (hvalid : desk.Valid) {draft : StoredDraft} {editedBody : String}
    {result : TicketComment × Bool}
    (h : (draftComment sha256 now context ticketKey draft editedBody).run desk =
      .ok (result, desk')) :
    ∃ new, desk'.outbox = desk.outbox ++ new ∧
      ∀ e ∈ new, e.eventType = "NOTIFY_AGENT_PUBLIC_RESPONSE_ADDED" := by
  unfold draftComment at h
  split at h
  · rw [Transaction.lift_bind_eq_ok] at h
    obtain ⟨_, _, h⟩ := h
    dsimp only at h
    split at h
    · exact queueComment_ok hvalid h
    · exact (Transaction.throw_ne_ok.mp h).elim
  · exact (Transaction.throw_ne_ok.mp h).elim

/-! ## 2. The event of a response -/

def isAgentResponse (e : OutboxEvent) : Bool := e.eventType = "AGENT_PUBLIC_RESPONSE_ADDED"

/-- **The response is on record**: one `AGENT_PUBLIC_RESPONSE_ADDED` event was
    written with the comment, and delivered for the first time it completes the open
    first-response rows of the ticket at the time of the comment. -/
def ResponseRecorded (desk desk' : Desk) (comment : TicketComment) : Prop :=
  ∃ e input, (written desk desk').filter isAgentResponse = [e] ∧
    getD e.payload "comment_id" = .str (uuidText comment.commentId) ∧
    Sla.slaInput e = .ok input ∧ input.ticketId = comment.ticketId ∧
    ∀ (store store' : Sla.Store), (Sla.process input).run store = .ok ((), store') →
      List.Forall₂ (fun r r' => Sla.AwaitsResponse input r →
        r'.row.completedAt = some comment.createdAt) store.records store'.records

/-- The input the worker makes of a comment's event. -/
theorem slaInput_commentEvent {id tenantId ticketId commentId actorUserId : Uuid}
    (hticket : ticketId < 2 ^ 128) :
    Sla.slaInput (commentEvent id now tenantId ticketId commentId actorUserId
      "AGENT_PUBLIC_RESPONSE_ADDED") = .ok {
        outboxEventId := id
        tenantId := tenantId
        ticketId := ticketId
        eventType := .agentPublicResponseAdded
        payload := commentPayload ticketId commentId actorUserId
        occurredAt := now } := by
  have hparse := uuid?_uuidText hticket
  unfold Sla.slaInput
  simp only [commentEvent, newEvent, commentPayload, lookup, if_true, Option.map_some, pyStr,
    Option.getD_some, hparse]
  rfl

/-- The requests that go through `TicketRepository.add_public_comment`. -/
def throughTicketApi : CommentRequest → Prop
  | .ticketApi _ _ _ => True
  | .agentQueue _ _ _ => False
  | .copilotDraft _ _ _ => False

/-- Notifications alone are no response on record. -/
theorem not_responseRecorded {comment : TicketComment} {new : List OutboxEvent}
    (houtbox : desk'.outbox = desk.outbox ++ new)
    (hnew : ∀ e ∈ new, e.eventType = "NOTIFY_AGENT_PUBLIC_RESPONSE_ADDED") :
    ¬ ResponseRecorded desk desk' comment := by
  rintro ⟨e, _, hone, _⟩
  rw [written_append houtbox] at hone
  have hmem : e ∈ new.filter isAgentResponse := by
    rw [hone]
    exact List.mem_singleton_self e
  obtain ⟨hin, htype⟩ := List.mem_filter.mp hmem
  rw [isAgentResponse, hnew e hin] at htype
  exact absurd htype (by decide)

/-- **Which public comments of an analyst complete the first response**: in every
    run of the desk, those made through the ticket API, and no others. -/
theorem response_recorded_iff {desk₀ : Desk} {ls : List DeskLabel} (hinit : desk₀.Valid)
    (hrun : Run (DeskStep sha256) desk₀ ls desk) {request : CommentRequest}
    (hanalyst : context.isAllowed .ticketAnalystRead = true)
    (h : (request.transaction sha256 now context).run desk = .ok ((), desk'))
    {comment : TicketComment} (hcomment : desk'.comments = desk.comments ++ [comment])
    (hpublic : comment.visibility = .publicComment) :
    ResponseRecorded desk desk' comment ↔ throughTicketApi request := by
  have hvalid := (run_continues hrun hinit).1
  cases request with
  | ticketApi key command idempotencyKey =>
      refine iff_of_true ?_ trivial
      rw [CommentRequest.transaction, Transaction.bind_eq_ok] at h
      obtain ⟨_, desk₁, hrecord, h⟩ := h
      obtain ⟨_, rfl⟩ := Transaction.pure_eq_ok.mp h
      rcases ticketComment_ok hvalid hrecord with
        ⟨hsame, _⟩ | ⟨ticket, hticket, tenantId, userId, body, hcomments, houtbox⟩
      · rw [hsame] at hcomment
        exact absurd (congrArg List.length hcomment) (by simp)
      · rw [hcomments] at hcomment
        obtain rfl := List.singleton_inj.mp (List.append_cancel_left hcomment)
        have htype : slaEventType context = "AGENT_PUBLIC_RESPONSE_ADDED" := by
          rw [slaEventType, if_pos hanalyst]
        rw [htype] at houtbox
        refine ⟨commentEvent (desk.nextId + 1) now tenantId ticket.ticketId desk.nextId userId
          "AGENT_PUBLIC_RESPONSE_ADDED", _, ?_, rfl,
          slaInput_commentEvent (hvalid.ticketUuids ticket hticket), rfl,
          fun store store' hprocess => Sla.process_response rfl hprocess⟩
        rw [written_append houtbox]
        rfl
  | agentQueue key command idempotencyKey =>
      refine iff_of_false ?_ (fun hno => hno)
      rw [CommentRequest.transaction, Transaction.bind_eq_ok] at h
      obtain ⟨_, desk₁, hrecord, h⟩ := h
      obtain ⟨_, rfl⟩ := Transaction.pure_eq_ok.mp h
      obtain ⟨new, houtbox, hnew⟩ := queueComment_ok hvalid hrecord
      exact not_responseRecorded houtbox hnew
  | copilotDraft key draft editedBody =>
      refine iff_of_false ?_ (fun hno => hno)
      rw [CommentRequest.transaction, Transaction.bind_eq_ok] at h
      obtain ⟨_, desk₁, hrecord, h⟩ := h
      obtain ⟨_, rfl⟩ := Transaction.pure_eq_ok.mp h
      obtain ⟨new, houtbox, hnew⟩ := draftComment_ok hvalid hrecord
      exact not_responseRecorded houtbox hnew

/-- An analyst's request on the sample desk. -/
def sampleRequest : CommentRequest :=
  .ticketApi "T-1" ⟨"Looking into it", by decide⟩ "key-1"

/-- The same comment made in the agent queue. -/
def sampleQueueRequest : CommentRequest :=
  .agentQueue "T-1" ⟨.publicComment, "Looking into it", by decide⟩ "key-1"

theorem response_recorded_sample :
    ∃ desk', desk'.comments = [⟨1, 1, 5, .publicComment, "Looking into it", "PORTAL", 0⟩] ∧
      ResponseRecorded sampleDesk desk'
        ⟨1, 1, 5, .publicComment, "Looking into it", "PORTAL", 0⟩ := by
  have hrun : ∃ desk', (sampleRequest.transaction id 0 sampleContext).run sampleDesk =
      .ok ((), desk') ∧
      desk'.comments = [⟨1, 1, 5, .publicComment, "Looking into it", "PORTAL", 0⟩] :=
    ⟨_, rfl, by decide +kernel⟩
  obtain ⟨desk', h, hcomments⟩ := hrun
  exact ⟨desk', hcomments,
    (response_recorded_iff sampleDesk_valid .start rfl h hcomments rfl).mpr trivial⟩

/-- **A public comment made in the agent queue** is not heard of. -/
theorem response_unrecorded : ∃ desk',
    (sampleQueueRequest.transaction id 0 sampleContext).run sampleDesk = .ok ((), desk') ∧
      desk'.comments =
        [⟨1, 1, 5, .publicComment, "Looking into it", "API", 0⟩] ∧
      (written sampleDesk desk').filter isAgentResponse = [] ∧
      ¬ ResponseRecorded sampleDesk desk'
        ⟨1, 1, 5, .publicComment, "Looking into it", "API", 0⟩ := by
  refine ⟨_, rfl, by decide +kernel, by decide +kernel, ?_⟩
  rintro ⟨e, _, hone, _⟩
  have hnone : e ∈ ([] : List OutboxEvent) := by
    rw [show ([] : List OutboxEvent) = [e] from hone]
    exact List.mem_singleton_self e
  exact absurd hnone List.not_mem_nil

end Helpdesk.Tickets
