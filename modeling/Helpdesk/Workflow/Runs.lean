/-
  File:      Helpdesk/Workflow/Runs.lean
  Subject:   Runs of the desk: comments, transitions and decisions in any order.

  One step is one committed transaction of a service, with whatever arguments and
  at whatever time; `elsewhere` is any other transaction of the repository, as far
  as it concerns the desk. Every step keeps the invariant of the tables and leaves
  every ticket under its workflow version.
-/
import Helpdesk.Lib.Runs
import Helpdesk.Tickets.Statements
import Helpdesk.Workflow.Service

namespace Helpdesk.Workflow

open Helpdesk.Python Helpdesk.Core Helpdesk.Tickets

variable {sha256 : String → String} {now : Instant} {context : RequestContext} {ticketKey : String}

/-! ## 1. What every statement respects -/

/-- The requests that record a comment; a draft is claimed in a transaction before. -/
inductive CommentRequest where
  | ticketApi (ticketKey : String) (command : PublicCommentCreateRequest) (idempotencyKey : String)
  | agentQueue (ticketKey : String) (command : AnalystCommentCreateRequest)
      (idempotencyKey : String)
  | copilotDraft (ticketKey : String) (draft : StoredDraft) (editedBody : String)

/-- The transaction in which a request records its comment. -/
def CommentRequest.transaction (sha256 : String → String) (now : Instant)
    (context : RequestContext) : CommentRequest → DeskTransaction Unit
  | ticketApi ticketKey command key => do
      let _ ← ticketComment sha256 now context ticketKey command key
  | agentQueue ticketKey command key => do
      let _ ← queueComment sha256 now context ticketKey command key
  | copilotDraft ticketKey draft editedBody => do
      let _ ← draftComment sha256 now context ticketKey draft editedBody

section Statements

variable {R : Desk → Desk → Prop} (hR : StatementsRespect R)
include hR

/-- The events about an approval are no transitions. -/
theorem respects_recordFact {tenantId approvalId : Uuid} {eventType : String}
    {payload : List (String × Json)} {rowVersion : Nat}
    (htype : eventType ≠ "TICKET_WORKFLOW_TRANSITIONED") :
    Transaction.Respects R (recordFact now tenantId approvalId eventType payload rowVersion) :=
  hR.emitOrIgnore nofun htype

theorem respects_createApproval {ticket : Ticket} {definition : ApprovalDefinitionRow}
    {approverIds : List Uuid} :
    Transaction.Respects R (createApproval now ticket definition approverIds) := by
  unfold createApproval
  refine hR.bind hR.newId fun approvalId desk u desk' h => ?_
  rw [Transaction.get_bind] at h
  dsimp only at h
  rw [Transaction.guard_eq_ok, Transaction.set_bind] at h
  refine hR.trans _ _ _ ?_ (respects_recordFact hR (by decide) _ _ _ h.2)
  exact hR.tables rfl rfl rfl (Nat.le_refl _)

theorem respects_request {tenantId ticketId : Uuid} {approvalCode : String} :
    Transaction.Respects R (request now tenantId ticketId approvalCode) := by
  unfold request
  refine .get_bind fun desk => ?_
  split
  · split
    · exact .lift_bind fun approvers _ => .guard (respects_createApproval hR)
    · exact .throw _
  · exact .throw _

theorem respects_requests {tenantId ticketId : Uuid} (requests : List String) :
    Transaction.Respects R (requests.forM (request now tenantId ticketId)) :=
  .forM hR.refl hR.trans (fun _ => respects_request hR) requests

theorem respects_expireIfDue {approval : LockedApproval} :
    Transaction.Respects R (expireIfDue now approval) := by
  unfold expireIfDue
  split
  · exact hR.pure _
  · refine hR.bind (.modify fun _ => hR.tables rfl rfl rfl (Nat.le_refl _)) fun _ => ?_
    exact hR.bind (respects_recordFact hR (by decide)) fun _ => hR.pure _

theorem respects_recordDecision {approval : LockedApproval} {userId : Uuid} {decision : Decision}
    {comment : Option String} {terminal : Option Decision} :
    Transaction.Respects R (recordDecision now approval userId decision comment terminal) := by
  unfold recordDecision
  refine hR.bind (.modify fun _ => hR.tables rfl rfl rfl (Nat.le_refl _)) fun _ => ?_
  refine hR.bind (.modify fun _ => hR.tables rfl rfl rfl (Nat.le_refl _)) fun _ => ?_
  exact hR.bind (respects_recordFact hR (by decide)) fun _ => hR.pure _

theorem respects_comment (request : CommentRequest) :
    Transaction.Respects R (request.transaction sha256 now context) := by
  cases request with
  | ticketApi => exact hR.bind hR.ticketComment fun _ => hR.pure _
  | agentQueue => exact hR.bind hR.queueComment fun _ => hR.pure _
  | copilotDraft => exact hR.bind hR.draftComment fun _ => hR.pure _

end Statements

/-! ## 2. The services keep the tables -/

/-- **The update of a ticket** keeps the row's identity, and the trigger the rest. -/
theorem updateTicket_ok {desk desk' : Desk} {ticketId : Uuid} {change : Ticket → Ticket} {u : Unit}
    (h : (updateTicket ticketId change).run desk = .ok (u, desk')) :
    (∀ t ∈ desk'.tickets, ∃ s ∈ desk.config.statuses,
      s.statusId = t.statusId ∧ s.workflowVersionId = t.workflowVersionId) ∧
    desk' = { desk with tickets := desk.tickets.map fun t =>
      if t.ticketId = ticketId then { change t with rowVersion := t.rowVersion + 1 } else t } := by
  unfold updateTicket at h
  rw [Transaction.get_bind] at h
  dsimp only at h
  rw [Transaction.guard_eq_ok, Transaction.set_eq_ok] at h
  obtain ⟨hall, rfl⟩ := h
  refine ⟨?_, rfl⟩
  simpa only [not_not, List.all_eq_true, List.any_eq_true, Bool.and_eq_true, decide_eq_true_eq]
    using hall

theorem keeping_updateTicket {ticketId : Uuid} {change : Ticket → Ticket}
    (hchange : ∀ t, (change t).ticketId = t.ticketId ∧ (change t).tenantId = t.tenantId ∧
      (change t).workflowVersionId = t.workflowVersionId) :
    Keeping (updateTicket ticketId change) := by
  intro desk u desk' h hvalid
  obtain ⟨hstatus, rfl⟩ := updateTicket_ok h
  have hsame : ∀ t : Ticket,
      let t' := if t.ticketId = ticketId then { change t with rowVersion := t.rowVersion + 1 } else t
      t'.ticketId = t.ticketId ∧ t'.tenantId = t.tenantId ∧
        t'.workflowVersionId = t.workflowVersionId := by
    intro t
    by_cases ht : t.ticketId = ticketId
    · simpa only [if_pos ht] using hchange t
    · simp only [if_neg ht, and_self]
  refine ⟨⟨?_, ?_, hstatus, hvalid.commentKeys⟩, ⟨rfl, fun t ht => ?_⟩⟩
  · have hids : (desk.tickets.map fun t => if t.ticketId = ticketId then
        { change t with rowVersion := t.rowVersion + 1 } else t).map (·.ticketId) =
        desk.tickets.map (·.ticketId) := by
      rw [List.map_map]
      exact List.map_congr_left fun t _ => (hsame t).1
    rw [hids]
    exact hvalid.ticketIds
  · intro t' ht'
    obtain ⟨t, ht, rfl⟩ := List.mem_map.mp ht'
    rw [(hsame t).1]
    exact hvalid.ticketUuids t ht
  · exact ⟨_, List.mem_map_of_mem ht, hsame t⟩

/-- The update of a continuation touches the status alone. -/
theorem keeping_continueWorkflow {approval : LockedApproval} {transitionId : Uuid} :
    Keeping (continueWorkflow now context approval transitionId) := by
  unfold continueWorkflow
  refine .get_bind fun desk => ?_
  split
  · exact .throw _
  · exact keeping_bind (keeping_updateTicket fun t => ⟨rfl, rfl, rfl⟩) fun _ => keeping_emit nofun

theorem keeping_recordTransition {ticket : Ticket} {transition : WorkflowTransition}
    {newRowVersion : Nat} :
    Keeping (recordTransition now context ticket transition newRowVersion) := by
  unfold recordTransition
  exact keeping_bind (keeping_emit nofun) fun _ => keeping_emitOrIgnore nofun

theorem keeping_moveTicket {userId : Uuid} {ticket : WorkflowTicket}
    {transition : WorkflowTransition} {command : TransitionCommand} {comment : Option String} :
    Keeping (moveTicket now context userId ticket transition command comment) := by
  unfold moveTicket
  refine .get_bind fun desk => .lift_bind fun updates _ => ?_
  have hrest : Keeping (do
      updateTicket ticket.row.ticketId (updates.apply transition.row.toStatusId)
      recordTransition now context ticket.row transition (ticket.row.rowVersion + 1)) :=
    keeping_bind (keeping_updateTicket fun t => ⟨rfl, rfl, rfl⟩) fun _ => keeping_recordTransition
  split
  · exact keeping_bind keeping_addPublicComment fun _ => hrest
  · exact hrest

theorem keeping_execute {command : TransitionCommand} {key : String} :
    Keeping (execute sha256 now context ticketKey command key) := by
  unfold execute
  refine .lift_bind fun _ _ => .lift_bind fun ids _ => .get_bind fun desk => ?_
  split
  · exact .throw _
  · refine keeping_bind keeping_statements.claimIdempotency fun idem => .lift_bind fun _ _ => ?_
    split
    · exact keeping_pure none
    · refine .guard (.guard (.get_bind fun desk => ?_))
      split
      · exact .throw _
      · refine .lift_bind fun _ _ => .guard (keeping_bind keeping_moveTicket fun _ => ?_)
        refine .lift_bind fun requests _ => ?_
        refine keeping_bind (respects_requests keeping_statements requests) fun _ => ?_
        exact keeping_bind keeping_statements.completeIdempotency fun _ => keeping_pure _

theorem keeping_decide {approvalId : Uuid} {command : ApprovalDecisionCommand} {key : String} :
    Keeping (decide sha256 now context approvalId command key) := by
  unfold decide
  refine .lift_bind fun _ _ => .lift_bind fun ids _ => ?_
  refine keeping_bind keeping_statements.claimIdempotency fun idem => .lift_bind fun _ _ => ?_
  refine .get_bind fun desk => ?_
  split
  · exact .throw _
  · split
    · exact keeping_pure _
    · refine keeping_bind (respects_expireIfDue keeping_statements) fun expired => ?_
      split
      · exact keeping_pure _
      · refine .lift_bind fun _ _ => keeping_bind ?_ fun rowVersion =>
          keeping_bind keeping_statements.completeIdempotency fun _ => keeping_pure _
        unfold applyDecision
        refine .get_bind fun desk => .lift_bind fun terminal _ => ?_
        refine keeping_bind (respects_recordDecision keeping_statements) fun rowVersion => ?_
        split
        · exact keeping_pure _
        · split
          · exact .throw _
          · exact keeping_bind keeping_continueWorkflow fun _ => keeping_pure _

/-! ## 3. Steps and runs -/

/-- What happens to the desk in one step. -/
inductive DeskLabel where
  | comment (now : Instant) (context : RequestContext) (request : CommentRequest)
  | transition (now : Instant) (context : RequestContext) (ticketKey : String)
      (command : TransitionCommand) (idempotencyKey : String)
  | decision (now : Instant) (context : RequestContext) (approvalId : Uuid)
      (command : ApprovalDecisionCommand) (idempotencyKey : String)
  | elsewhere

/-- **One committed transaction.** -/
inductive DeskStep (sha256 : String → String) : Desk → DeskLabel → Desk → Prop where
  | comment {desk desk' : Desk} {now : Instant} {context : RequestContext}
      {request : CommentRequest} {u : Unit}
      (h : (request.transaction sha256 now context).run desk = .ok (u, desk')) :
      DeskStep sha256 desk (.comment now context request) desk'
  | transition {desk desk' : Desk} {now : Instant} {context : RequestContext} {ticketKey : String}
      {command : TransitionCommand} {key : String} {version : Option Nat}
      (h : (execute sha256 now context ticketKey command key).run desk = .ok (version, desk')) :
      DeskStep sha256 desk (.transition now context ticketKey command key) desk'
  | decision {desk desk' : Desk} {now : Instant} {context : RequestContext} {approvalId : Uuid}
      {command : ApprovalDecisionCommand} {key : String} {outcome : DecisionOutcome}
      (h : (decide sha256 now context approvalId command key).run desk = .ok (outcome, desk')) :
      DeskStep sha256 desk (.decision now context approvalId command key) desk'
  /-- tickets are created, routed and edited, workers mark events: no ticket leaves
      its workflow version and no comment is recorded -/
  | elsewhere {desk desk' : Desk} (h : desk.Continues desk')
      (hcomments : desk'.comments = desk.comments) : DeskStep sha256 desk .elsewhere desk'

theorem DeskStep.continues {desk desk' : Desk} {l : DeskLabel} (h : DeskStep sha256 desk l desk') :
    desk.Continues desk' := by
  cases h with
  | comment h => exact respects_comment keeping_statements _ _ _ _ h
  | transition h => exact keeping_execute _ _ _ h
  | decision h => exact keeping_decide _ _ _ h
  | elsewhere h => exact h

/-- **Every run keeps the tables valid and every ticket in its workflow version.** -/
theorem run_continues {desk₀ desk : Desk} {ls : List DeskLabel}
    (hrun : Run (DeskStep sha256) desk₀ ls desk) : desk₀.Continues desk :=
  hrun.related Desk.Continues.refl Desk.Continues.trans fun _ _ _ h => h.continues

/-! ## 4. A desk -/

/-- One workflow: a request waits for an approval and then goes on. -/
def sampleConfig : DeskConfig where
  workflowVersions := [⟨1, .published⟩]
  statuses := [⟨1, 1, "NEW", "TO_DO"⟩, ⟨2, 1, "AWAITING_APPROVAL", "WAITING"⟩,
    ⟨3, 1, "IN_PROGRESS", "IN_PROGRESS"⟩]
  transitions :=
    [⟨1, 1, "START_PROGRESS", 1, 3, .list [], .list [], .list [], true⟩,
     ⟨2, 1, "APPROVE_ACCESS", 2, 3, .list [], .list [],
       .list [.dict [("type", .str "APPROVAL_CONTINUATION")]], true⟩]
  approvalDefinitions :=
    [{ definitionId := 1
       versionId := 1
       tenantId := 1
       projectId := 1
       code := "ACCESS_MANAGER"
       activeFlag := true
       versionNumber := 1
       versionStatus := .published
       effectiveFrom := none
       effectiveTo := none
       mode := "MANAGER_APPROVAL"
       approverRule := .dict []
       approvedTransitionId := some 2
       rejectedTransitionId := none
       allowRequesterSelfApproval := false
       expiresAfterMinutes := none }]
  users := [⟨4, 1, true, some 5⟩, ⟨5, 1, true, none⟩]
  resolutionCodes := []
  statusId_key := by decide
  statusCode_key := by decide

/-- A ticket of the sample workflow. -/
def sampleTicket (ticketId : Uuid) (ticketKey : String) (statusId : Uuid) : Ticket where
  ticketId := ticketId
  tenantId := 1
  ticketKey := ticketKey
  projectId := 1
  workTypeCode := "ACCESS_REQUEST"
  workflowVersionId := 1
  statusId := statusId
  rowVersion := 1
  summary := "Access"
  description := none
  reporterUserId := 4
  requestedForUserId := none
  serviceNodeId := none
  priorityCode := "P3"
  assignmentGroupId := none
  assigneeUserId := none
  resolutionCode := none
  resolutionSummary := none
  firstResponseAt := none
  resolvedAt := none
  closedAt := none
  createdAt := 0

/-- A new ticket, and one that waits for user 5 to approve it. -/
def sampleDesk : Desk where
  config := sampleConfig
  tickets := [sampleTicket 1 "T-1" 1, sampleTicket 2 "T-2" 2]
  comments := []
  outbox := []
  idempotency := []
  approvals := [⟨1, 1, 2, 1, 1, .pending, 0, none, none, 1⟩]
  approvers := [⟨1, 5, 1, 1, none⟩]
  drafts := []
  draftActions := []
  nextId := 1

theorem sampleDesk_valid : sampleDesk.Valid where
  ticketIds := by decide
  ticketUuids := by decide
  ticketStatus := by decide
  commentKeys := fun e he => absurd he List.not_mem_nil

/-- User 5, who may do everything. -/
def sampleContext : RequestContext where
  tenantId := some 1
  userId := some 5
  supportGroupIds := []
  correlationId := "correlation"
  requestId := "request"
  isAllowed := fun _ => true

end Helpdesk.Workflow
