/-
  File:      Helpdesk/EmployeeAgent/Repository.lean
  Subject:   The rows of an employee conversation
             (apps/api/app/employee_agent/repository.py, alembic
             0017_employee_agent_conversations and 0018_agent_feedback_escalation).

  All statements name the conversation, its tenant and its owner: the rows here are
  those of one conversation, which is open. Each definition is one statement, or a few
  of one transaction. Messages, evidence and audit rows are left out.
-/
import Helpdesk.EmployeeAgent.StateMachine
import Helpdesk.Python.Uuid

namespace Helpdesk.EmployeeAgent

open Helpdesk.Python

/-! ## 1. Rows -/

inductive TurnOutcome where
  | resolutionProposed | escalationRecommended | safeRefusal | aiUnavailable
  deriving DecidableEq, Repr

inductive TurnStatus where
  | active | completed | cancelled | failed
  deriving DecidableEq, Repr

/-- A row of `ai.conversation_turn`. -/
structure Turn where
  turnId : Uuid
  stateCode : AgentState
  turnStatus : TurnStatus
  outcomeCode : Option TurnOutcome
  retrievalConfigurationVersionId : Option Uuid
  agentRunId : Option Uuid
  safeFailureCode : Option String
  deriving DecidableEq, Repr

/-- The row of `ai.feedback` with the resolution outcome. -/
structure Feedback where
  ratingValue : Nat
  comment : Option String
  resolved : Bool
  deriving DecidableEq, Repr

/-- The ticket draft whose source is the conversation; there is one at most. -/
structure Draft where
  draftId : Uuid
  submittedTicketId : Option Uuid
  deriving DecidableEq, Repr

structure Store where
  /-- `metadata_json->>'state'` -/
  state : AgentState
  turns : List Turn
  feedback : Option Feedback
  draft : Option Draft
  /-- `metadata_json->>'ticket_draft_id'` -/
  ticketDraftId : Option Uuid
  ticketId : Option Uuid
  nextId : Uuid
  deriving DecidableEq, Repr

/-- What `stream_message` has to say. -/
structure Citation where
  label : String
  documentTitle : String
  sourceType : String
  canonicalUri : Option String
  sectionTitle : Option String
  sectionAnchor : Option String
  pageNumber : Option Nat
  deriving DecidableEq, Repr

structure AgentAnswer where
  text : String
  state : AgentState
  outcome : TurnOutcome
  citations : List Citation
  retrievalConfigurationVersionId : Option Uuid
  agentRunId : Option Uuid
  deriving DecidableEq, Repr

/-! ## 2. Turns -/

/-- The rows of `turn_active` and of every `WHERE … turn_status='ACTIVE'`. -/
def Store.turnActive (store : Store) (turnId : Uuid) : Bool :=
  store.turns.any fun turn => turn.turnId = turnId && turn.turnStatus = .active

/-- `UPDATE ai.conversation_turn … WHERE conversation_turn_id=:turn_id AND
    turn_status='ACTIVE'`. -/
def Store.updateTurn (store : Store) (turnId : Uuid) (change : Turn → Turn) : Store :=
  { store with
    turns := store.turns.map fun turn =>
      if turn.turnId = turnId && turn.turnStatus = .active then change turn else turn }

inductive StartError where
  | conversationClosed | activeTurn
  deriving DecidableEq, Repr

/-- A state in which `start_turn` accepts no message. -/
def AgentState.closed (state : AgentState) : Bool :=
  [AgentState.resolvedWithoutTicket, .ticketSubmitted, .ticketDraftReady,
    .awaitingUserConfirmation].contains state

/-- `start_turn`: the new turn. -/
def startTurn (store : Store) : Except StartError (Uuid × Store) :=
  if store.state.closed then .error .conversationClosed
  else if store.turns.any (·.turnStatus = .active) then .error .activeTurn
  else
    let turn : Turn :=
      { turnId := store.nextId
        stateCode := .collectingInformation
        turnStatus := .active
        outcomeCode := none
        retrievalConfigurationVersionId := none
        agentRunId := none
        safeFailureCode := none }
    .ok (turn.turnId, { store with
      turns := store.turns ++ [turn]
      state := .collectingInformation
      nextId := store.nextId + 1 })

/-- `finish_turn`; `none` is `ActiveTurnError`. -/
def finishTurn (turnId : Uuid) (answer : AgentAnswer) (store : Store) : Option Store :=
  if store.turnActive turnId then
    let store := store.updateTurn turnId fun turn =>
      { turn with
        agentRunId := answer.agentRunId
        stateCode := answer.state
        turnStatus := .completed
        outcomeCode := some answer.outcome
        retrievalConfigurationVersionId := answer.retrievalConfigurationVersionId }
    some { store with state := answer.state }
  else none

/-- `cancel_turn`; `none` is `ConversationNotFoundError`. -/
def cancelTurn (turnId : Uuid) (store : Store) : Option Store :=
  if store.turnActive turnId then
    some (store.updateTurn turnId fun turn =>
      { turn with turnStatus := .cancelled, safeFailureCode := some "CLIENT_CANCELLED" })
  else none

/-- `fail_turn`. -/
def failTurn (turnId : Uuid) (failureCode : String) (store : Store) : Store :=
  store.updateTurn turnId fun turn =>
    { turn with
      turnStatus := .failed
      safeFailureCode := some (String.ofList (failureCode.toList.take 100)) }

/-! ## 3. Feedback, draft and ticket -/

/-- A state that accepts resolution feedback. -/
def AgentState.acceptsFeedback (state : AgentState) : Bool :=
  [AgentState.awaitingResolutionConfirmation, .collectingTicketFields,
    .awaitingUserConfirmation, .resolvedWithoutTicket].contains state

inductive FeedbackError where
  | conversationClosed | conflict
  deriving DecidableEq, Repr

/-- `record_resolution_feedback`. -/
def recordResolutionFeedback (helpful resolved : Bool) (comment : Option String) (store : Store) :
    Except FeedbackError Store :=
  if !store.state.acceptsFeedback then .error .conversationClosed
  else if resolved && store.state = .collectingTicketFields then .error .conversationClosed
  else
    let given : Feedback := ⟨if helpful then 5 else 1, comment, resolved⟩
    -- an outcome that is there already has to be the same
    let recorded := store.feedback.getD given
    if recorded ≠ given then .error .conflict
    else .ok { store with
      feedback := some recorded
      state := if resolved then .resolvedWithoutTicket else .collectingTicketFields }

/-- `link_draft`; `none` is `ConversationNotFoundError`. -/
def linkDraft (draftId : Uuid) (store : Store) : Option Store :=
  if store.draft.any (·.draftId = draftId) then
    some { store with state := .awaitingUserConfirmation, ticketDraftId := some draftId }
  else none

/-- `link_ticket`; `none` is `ConversationNotFoundError`. -/
def linkTicket (draftId ticketId : Uuid) (store : Store) : Option Store :=
  if store.draft.any fun d => d.draftId = draftId && d.submittedTicketId = some ticketId then
    some { store with state := .ticketSubmitted, ticketId := some ticketId }
  else none

/-- `create_agent_draft`: the draft of the conversation, or a new one. -/
def createAgentDraft (store : Store) : Uuid × Store :=
  match store.draft with
  | some draft => (draft.draftId, store)
  | none => (store.nextId,
      { store with draft := some ⟨store.nextId, none⟩, nextId := store.nextId + 1 })

/-- The draft is submitted as a ticket, here or in the ticket API. -/
def submitDraft (ticketId : Uuid) (store : Store) : Store :=
  { store with
    draft := store.draft.map fun draft =>
      { draft with submittedTicketId := draft.submittedTicketId.or (some ticketId) } }

end Helpdesk.EmployeeAgent
