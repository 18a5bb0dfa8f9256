/-
  File:      Helpdesk/Tickets/Comments.lean
  Subject:   The ways a comment is recorded.

  * the ticket API: `TicketService.add_public_comment` over
    `TicketRepository.add_public_comment` (apps/api/app/tickets);
  * the agent queue: `QueueService.add_comment` over `QueueRepository.add_comment`
    (apps/api/app/queues);
  * the analyst copilot: `post_draft`, which hands the edited draft to the agent
    queue (apps/api/app/analyst_copilot/service.py).

  `sha256` stands for `hashlib.sha256(text.encode()).hexdigest()`: the services
  only compare two digests.
-/
import Helpdesk.Tickets.Database

namespace Helpdesk.Tickets

open Helpdesk.Python Helpdesk.Core

/-! ## 1. The repositories -/

/-- `INSERT INTO itsm.ticket_comment ... RETURNING comment_id`. -/
def insertComment (now : Instant) (ticketId authorUserId : Uuid) (visibility : Visibility)
    (body sourceChannel : String) : DeskTransaction Uuid := do
  let commentId ← newId
  modify fun desk => { desk with
    comments := desk.comments ++
      [⟨commentId, ticketId, authorUserId, visibility, body, sourceChannel, now⟩] }
  return commentId

/-- The payload both repositories write about a public comment. -/
def commentPayload (ticketId commentId actorUserId : Uuid) : List (String × Json) :=
  [("ticket_id", .str (uuidText ticketId)),
   ("comment_id", .str (uuidText commentId)),
   ("actor_user_id", .str (uuidText actorUserId)),
   ("visibility", .str "PUBLIC")]

/-- One outbox event about a public comment. -/
def emitComment (now : Instant) (tenantId ticketId commentId actorUserId : Uuid)
    (eventType : String) : DeskTransaction Unit :=
  emitOrIgnore now tenantId "TICKET" ticketId eventType
    (commentPayload ticketId commentId actorUserId) (.comment commentId eventType)

/-- `TicketRepository.add_public_comment`. -/
def addPublicComment (now : Instant) (tenantId ticketId actorUserId : Uuid) (body : String)
    (slaEventType : String) : DeskTransaction Uuid := do
  if ¬ ["AGENT_PUBLIC_RESPONSE_ADDED", "CUSTOMER_COMMENT_ADDED"].contains slaEventType then
    throw (.value "Unsupported SLA comment event type")
  let commentId ← insertComment now ticketId actorUserId .publicComment body "PORTAL"
  emitComment now tenantId ticketId commentId actorUserId slaEventType
  emitComment now tenantId ticketId commentId actorUserId ("NOTIFY_" ++ slaEventType)
  return commentId

/-- `QueueRepository.add_comment`. -/
def addComment (now : Instant) (tenantId ticketId actorUserId : Uuid) (visibility : Visibility)
    (body : String) : DeskTransaction Uuid := do
  let commentId ← insertComment now ticketId actorUserId visibility body "API"
  if visibility = .publicComment then
    emitComment now tenantId ticketId commentId actorUserId "NOTIFY_AGENT_PUBLIC_RESPONSE_ADDED"
  return commentId

/-- `QueueRepository.comment`. -/
def Desk.comment (desk : Desk) (tenantId commentId : Uuid) : Option TicketComment :=
  desk.comments.find? fun c => c.commentId = commentId &&
    desk.tickets.any fun t => t.ticketId = c.ticketId && t.tenantId = tenantId

/-! ## 2. The services -/

structure PublicCommentCreateRequest where
  body : String
  body_length : 1 ≤ body.length ∧ body.length ≤ 10000

structure AnalystCommentCreateRequest where
  visibility : Visibility
  body : String
  body_length : 1 ≤ body.length ∧ body.length ≤ 10000

/-- `_authorize` of the ticket service. -/
def notPermitted : String := "The authenticated user is not permitted to perform this operation."

/-- `_commentable_ticket`. -/
def commentableTicket (desk : Desk) (context : RequestContext) (tenantId userId : Uuid)
    (ticketKey : String) : Except AppError Ticket :=
  match desk.ownTicket tenantId userId ticketKey with
  | some own => .ok own
  | none =>
      if ¬ context.isAllowed .ticketAnalystRead then .error (.notFound "Ticket was not found.")
      else match desk.analystTicket context tenantId ticketKey with
      | some analyst => .ok analyst
      | none => .error (.notFound "Ticket was not found.")

section Services

variable (sha256 : String → String)

/-- The SLA event of a comment made through the ticket API. -/
def slaEventType (context : RequestContext) : String :=
  if context.isAllowed .ticketAnalystRead then "AGENT_PUBLIC_RESPONSE_ADDED"
  else "CUSTOMER_COMMENT_ADDED"

/-- `TicketService.add_public_comment`; the id of the comment is `none` when the
    request is a replay. -/
def ticketComment (now : Instant) (context : RequestContext) (ticketKey : String)
    (command : PublicCommentCreateRequest) (idempotencyKey : String) :
    DeskTransaction (Option Uuid) := do
  let (tenantId, userId) ← identity context (.authorization "Access denied")
  authorize context .ticketCommentPublic notPermitted
  let body := stripText command.body
  if body = "" then
    throw (.validation "Comment body is required." [("body", ["Enter a public comment."])])
  let requestHash := sha256 (ticketKey ++ ":" ++ body)
  let ticket ← commentableTicket (← get) context tenantId userId ticketKey
  let idem ← claimIdempotency tenantId userId idempotencyKey requestHash
    "TICKET_PUBLIC_COMMENT_CREATE"
  checkIdempotency idem userId requestHash
  if idem.resultResourceId.isSome then
    return none
  let commentId ← addPublicComment now tenantId ticket.ticketId userId body (slaEventType context)
  completeIdempotency idem commentId
  return some commentId

/-- `QueueService.add_comment`: the comment and whether the request is a replay. -/
def queueComment (now : Instant) (context : RequestContext) (ticketKey : String)
    (command : AnalystCommentCreateRequest) (idempotencyKey : String) :
    DeskTransaction (TicketComment × Bool) := do
  let (tenantId, userId) ← identity context (.authorization "Access denied")
  authorize context .ticketAnalystRead "Access denied"
  authorize context
    (if command.visibility = .internalComment then .ticketCommentInternal else .ticketCommentPublic)
    "Access denied"
  let body := stripText command.body
  if body = "" then
    throw (.validation "Comment body is required." [("body", ["Enter a comment."])])
  let requestHash := sha256 <| Json.dumpsSorted <| .dict
    [("ticket_key", .str ticketKey), ("visibility", .str command.visibility.text),
     ("body", .str body)]
  let some ticket := (← get).analystTicket context tenantId ticketKey
    | throw (.notFound "Ticket was not found.")
  let idem ← claimIdempotency tenantId userId idempotencyKey requestHash
    ("TICKET_" ++ command.visibility.text ++ "_COMMENT_CREATE")
  checkIdempotency idem userId requestHash
  match idem.resultResourceId with
  | some commentId =>
      match (← get).comment tenantId commentId with
      | none => throw (.conflict "conflict" "The idempotent comment result is unavailable.")
      | some item => return (item, true)
  | none =>
      let commentId ← addComment now tenantId ticket.ticketId userId command.visibility body
      completeIdempotency idem commentId
      match (← get).comment tenantId commentId with
      | none => throw (.conflict "conflict" "The created comment is unavailable.")
      | some item => return (item, false)

/-! ## 3. The copilot -/

/-- `_POSTABLE_KINDS`. -/
def postableKind? : String → Option Visibility
  | "PUBLIC_RESPONSE" => some .publicComment
  | "INTERNAL_NOTE" => some .internalComment
  | _ => none

/-- `reference_block`. -/
def referenceBlock (citations : List (String × String)) : List Char :=
  if citations.isEmpty then []
  else
    let lines := citations.map fun c => "- ".toList ++ c.1.toList ++ ": ".toList ++ c.2.toList
    (List.intercalate ['\n'] ("Sources:".toList :: lines)).take 1800

/-- `_posted_body`, limited to `limit` characters. -/
def postedBody (editedBody : String) (draft : StoredDraft) (limit : Nat) : String :=
  let label (citation : String) := (draft.citationLabels.find? (·.1 = citation)).map (·.2)
  let cited := ((draft.claims.flatMap (·.citationIds)).filter fun c => (label c).isSome).dedup
  let block := referenceBlock
    ((cited.insertionSort (· ≤ ·)).map fun c => (c, (label c).getD ""))
  let body := strip editedBody.toList
  String.ofList ((if block.isEmpty then body else body ++ ['\n', '\n'] ++ block).take limit)

/-- `compose_draft_body`. -/
def composeDraftBody (claims : List DraftClaim) : List Char :=
  let lines := claims.map fun c =>
    if c.supported then c.text.toList else "[Unverified] ".toList ++ c.text.toList
  (List.intercalate ['\n', '\n'] lines).take 8000

/-- `_claim_draft`, with the checks before it and the one after it. -/
def claimDraft (context : RequestContext) (ticketKey : String) (draftId : Uuid) :
    DeskTransaction StoredDraft := do
  if ¬ context.isAllowed .aiAnalystUse then
    throw (.authorization "Analyst copilot access is not authorized.")
  let (tenantId, userId) ← identity context (.authorization "Access denied")
  authorize context .ticketAnalystRead notPermitted
  let desk ← get
  let some ticket := desk.analystTicket context tenantId ticketKey
    | throw (.notFound "Ticket was not found.")
  let some draft := desk.drafts.find? fun d => d.draftId = draftId && d.tenantId = tenantId &&
      d.userId = userId && d.ticketId = ticket.ticketId
    | throw (.notFound "Copilot draft was not found for this ticket.")
  if (postableKind? draft.kind).isNone then
    throw (.conflict "conflict" "The copilot draft kind does not permit this action.")
  if desk.draftActions.any (·.draftId = draft.draftId) then
    throw (.conflict "conflict" "The copilot draft was already actioned.")
  return draft

/-- The comment `post_draft` makes of a claimed draft; a body the request schema
    refuses is a `ValueError`. -/
def draftComment (now : Instant) (context : RequestContext) (ticketKey : String)
    (draft : StoredDraft) (editedBody : String) : DeskTransaction (TicketComment × Bool) := do
  let some visibility := postableKind? draft.kind
    | throw (.conflict "conflict" "The copilot draft kind does not permit this action.")
  authorize context
    (if visibility = .internalComment then .ticketCommentInternal else .ticketCommentPublic)
    "The requested copilot draft action is not authorized."
  let body := postedBody editedBody draft 10000
  if hlength : 1 ≤ body.length ∧ body.length ≤ 10000 then
    queueComment sha256 now context ticketKey ⟨visibility, body, hlength⟩
      ("copilot-draft-post-" ++ uuidText draft.draftId)
  else throw (.value "String should have at least 1 character")

/-- `_record_action` of a posted draft. -/
def recordAction (draft : StoredDraft) (commentId : Uuid) (editedBody : String) :
    DeskTransaction Unit :=
  modify fun desk =>
    if desk.draftActions.any (·.draftId = draft.draftId) then desk
    else { desk with
      draftActions := desk.draftActions ++
        [⟨draft.draftId, "POSTED", "TICKET_COMMENT", commentId,
          strip editedBody.toList ≠ strip (composeDraftBody draft.claims)⟩] }

/-- `post_draft`: three transactions. -/
def postDraft (now : Instant) (context : RequestContext) (ticketKey : String) (draftId : Uuid)
    (editedBody : String) : Service Desk AppError (TicketComment × Bool) := do
  let draft ← (claimDraft context ticketKey draftId).commit
  let (item, replayed) ← (draftComment sha256 now context ticketKey draft editedBody).commit
  (recordAction draft item.commentId editedBody).commit
  return (item, replayed)

end Services

end Helpdesk.Tickets
