/-
  File:      Helpdesk/EmployeeAgent/World.lean
  Subject:   Everything that happens to one employee conversation
             (apps/api/app/employee_agent/service.py).

  A step is one committed transaction, or what a generator does between two
  suspensions. Requests work at the same time: messages, cancellations, feedback and
  confirmations, each with what it has read before.
-/
import Helpdesk.EmployeeAgent.Stream
import Helpdesk.Lib.Runs

namespace Helpdesk.EmployeeAgent

open Helpdesk.Python

/-! ## 1. Requests -/

/-- How far a call of `stream_message` has come. -/
inductive StreamPhase where
  /-- `conversation` has read the state -/
  | checked (state : AgentState)
  /-- `start_turn` has raised -/
  | refused
  | turn (turnId : Uuid) (point : Point)
  deriving DecidableEq, Repr

structure StreamCall where
  content : String
  phase : StreamPhase
  deriving DecidableEq, Repr

/-- A call of `resolution_feedback` whose check has passed. -/
structure FeedbackCall where
  helpful : Bool
  resolved : Bool
  comment : Option String
  /-- the draft, once it is there -/
  draftId : Option Uuid
  deriving DecidableEq, Repr

structure World where
  store : Store
  streams : List StreamCall
  feedbacks : List FeedbackCall
  /-- the drafts of the calls of `confirm_ticket` whose check has passed -/
  confirmations : List Uuid
  deriving DecidableEq, Repr

inductive Action where
  | message (content : String)
  | start (index : Nat)
  | stream (index : Nat) (step : StreamStep)
  /-- `cancel` -/
  | cancelTurn (turnId : Uuid)
  | feedback (helpful resolved : Bool) (comment : Option String)
  | draft (index : Nat)
  | record (index : Nat)
  | submit (ticketId : Uuid)
  | confirm
  | link (index : Nat) (ticketId : Uuid)

/-! ## 2. Steps -/

/-- The first check of `resolution_feedback`. -/
def feedbackAccepted (state : AgentState) (resolved : Bool) : Bool :=
  state.acceptsFeedback && (resolved ||
    [AgentState.awaitingResolutionConfirmation, .collectingTicketFields,
      .awaitingUserConfirmation].contains state)

/-- The last transaction of `resolution_feedback`: both statements, or none. -/
def recordFeedback (call : FeedbackCall) (store : Store) : Option Store :=
  match recordResolutionFeedback call.helpful call.resolved call.comment store, call.resolved,
      call.draftId with
  | .ok store, true, _ => some store
  | .ok store, false, some draftId => linkDraft draftId store
  | _, _, _ => none

/-- The state in which `confirm_ticket` goes on. -/
def confirmable (state : AgentState) : Bool :=
  state = .awaitingUserConfirmation || state = .ticketSubmitted

/-- **One step.** -/
def World.next (settings : Settings) (world : World) : Action → Option World
  | .message content =>
      some { world with streams := world.streams ++ [⟨content, .checked world.store.state⟩] }
  | .start index => do
      let call ← world.streams[index]?
      match call.phase with
      | .checked machine =>
          match startTurn world.store with
          | .ok (turnId, store) => some { world with
              store
              streams := world.streams.set index { call with phase := .turn turnId (.opened machine) } }
          | .error _ => some { world with
              streams := world.streams.set index { call with phase := .refused } }
      | .refused | .turn _ _ => none
  | .stream index step => do
      let call ← world.streams[index]?
      match call.phase with
      | .turn turnId point =>
          (streamStep settings call.content turnId point world.store step).map fun (point, store) =>
            { world with
              store
              streams := world.streams.set index { call with phase := .turn turnId point } }
      | .checked _ | .refused => none
  | .cancelTurn turnId =>
      (EmployeeAgent.cancelTurn turnId world.store).map fun store => { world with store }
  | .feedback helpful resolved comment =>
      if feedbackAccepted world.store.state resolved then
        some { world with
          feedbacks := world.feedbacks ++ [⟨helpful, resolved, comment, none⟩] }
      else none
  | .draft index => do
      let call ← world.feedbacks[index]?
      let (draftId, store) := createAgentDraft world.store
      if call.resolved then none
      else some { world with
        store
        feedbacks := world.feedbacks.set index { call with draftId := some draftId } }
  | .record index => do
      let call ← world.feedbacks[index]?
      let store ← recordFeedback call world.store
      return { world with store, feedbacks := world.feedbacks.eraseIdx index }
  | .submit ticketId => some { world with store := submitDraft ticketId world.store }
  | .confirm => do
      let draft ← world.store.draft
      if confirmable world.store.state then
        some { world with confirmations := world.confirmations ++ [draft.draftId] }
      else none
  | .link index ticketId => do
      let draftId ← world.confirmations[index]?
      let store ← linkTicket draftId ticketId world.store
      return { world with store, confirmations := world.confirmations.eraseIdx index }

def ConversationStep (settings : Settings) (world : World) (action : Action) (world' : World) : Prop :=
  world.next settings action = some world'

/-- A conversation that was just created. -/
def created (nextId : Uuid) : World where
  store := ⟨.new, [], none, none, none, none, nextId⟩
  streams := []
  feedbacks := []
  confirmations := []

/-! ## 3. What a step can do -/

variable {settings : Settings}

theorem startTurn_eq_ok {store store' : Store} {turnId : Uuid}
    (h : startTurn store = .ok (turnId, store')) :
    store.state.closed = false ∧ (∀ turn ∈ store.turns, turn.turnStatus ≠ .active) ∧
      turnId = store.nextId ∧ ∃ turn : Turn, turn.turnId = turnId ∧ turn.turnStatus = .active ∧
        store' = { store with
          turns := store.turns ++ [turn]
          state := .collectingInformation
          nextId := store.nextId + 1 } := by
  unfold startTurn at h
  split at h
  · cases h
  · next hclosed =>
      split at h
      · cases h
      · next hactive =>
          cases h
          refine ⟨by simpa using hclosed, fun turn hturn hstatus => hactive ?_, rfl, _, rfl, rfl, rfl⟩
          exact List.any_eq_true.mpr ⟨turn, hturn, by simpa using hstatus⟩

/-- What the rows of a step are. -/
inductive World.Stepped (settings : Settings) (world : World) : Action → World → Prop where
  | message {content : String} :
      world.Stepped settings (.message content)
        { world with streams := world.streams ++ [⟨content, .checked world.store.state⟩] }
  | started {index : Nat} {call : StreamCall} {machine : AgentState} {turnId : Uuid} {store : Store}
      (hcall : world.streams[index]? = some call) (hphase : call.phase = .checked machine)
      (hstart : startTurn world.store = .ok (turnId, store)) :
      world.Stepped settings (.start index)
        { world with
          store
          streams := world.streams.set index { call with phase := .turn turnId (.opened machine) } }
  | refused {index : Nat} {call : StreamCall} {machine : AgentState} {error : StartError}
      (hcall : world.streams[index]? = some call) (hphase : call.phase = .checked machine)
      (hstart : startTurn world.store = .error error) :
      world.Stepped settings (.start index)
        { world with streams := world.streams.set index { call with phase := .refused } }
  | streamed {index : Nat} {step : StreamStep} {call : StreamCall} {turnId : Uuid}
      {point point' : Point} {store : Store} (hcall : world.streams[index]? = some call)
      (hphase : call.phase = .turn turnId point)
      (hstep : streamStep settings call.content turnId point world.store step = some (point', store)) :
      world.Stepped settings (.stream index step)
        { world with
          store
          streams := world.streams.set index { call with phase := .turn turnId point' } }
  | cancelled {turnId : Uuid} {store : Store}
      (hcancel : EmployeeAgent.cancelTurn turnId world.store = some store) :
      world.Stepped settings (.cancelTurn turnId) { world with store }
  | feedback {helpful resolved : Bool} {comment : Option String}
      (haccepted : feedbackAccepted world.store.state resolved = true) :
      world.Stepped settings (.feedback helpful resolved comment)
        { world with feedbacks := world.feedbacks ++ [⟨helpful, resolved, comment, none⟩] }
  | drafted {index : Nat} {call : FeedbackCall} (hcall : world.feedbacks[index]? = some call) :
      world.Stepped settings (.draft index)
        { world with
          store := (createAgentDraft world.store).2
          feedbacks := world.feedbacks.set index
            { call with draftId := some (createAgentDraft world.store).1 } }
  | recorded {index : Nat} {call : FeedbackCall} {store : Store}
      (hcall : world.feedbacks[index]? = some call)
      (hrecord : recordFeedback call world.store = some store) :
      world.Stepped settings (.record index)
        { world with store, feedbacks := world.feedbacks.eraseIdx index }
  | submitted {ticketId : Uuid} :
      world.Stepped settings (.submit ticketId)
        { world with store := submitDraft ticketId world.store }
  | confirmed {draft : Draft} (hdraft : world.store.draft = some draft)
      (hstate : confirmable world.store.state = true) :
      world.Stepped settings .confirm
        { world with confirmations := world.confirmations ++ [draft.draftId] }
  | linked {index : Nat} {ticketId draftId : Uuid} {store : Store}
      (hconfirmation : world.confirmations[index]? = some draftId)
      (hlink : linkTicket draftId ticketId world.store = some store) :
      world.Stepped settings (.link index ticketId)
        { world with store, confirmations := world.confirmations.eraseIdx index }

theorem ConversationStep.stepped {world world' : World} {action : Action}
    (h : ConversationStep settings world action world') : world.Stepped settings action world' := by
  unfold ConversationStep World.next at h
  split at h
  · cases h
    exact .message
  · simp only [Option.bind_eq_bind, Option.bind_eq_some_iff] at h
    obtain ⟨call, hcall, h⟩ := h
    split at h
    · next machine hphase =>
        split at h
        · next turnId store hstart =>
            cases h
            exact .started hcall hphase hstart
        · next error hstart =>
            cases h
            exact .refused hcall hphase hstart
    · cases h
    · cases h
  · simp only [Option.bind_eq_bind, Option.bind_eq_some_iff] at h
    obtain ⟨call, hcall, h⟩ := h
    split at h
    · next turnId point hphase =>
        obtain ⟨⟨point', store⟩, hstep, rfl⟩ := Option.map_eq_some_iff.mp h
        exact .streamed hcall hphase hstep
    · cases h
    · cases h
  · obtain ⟨store, hcancel, rfl⟩ := Option.map_eq_some_iff.mp h
    exact .cancelled hcancel
  · split at h
    · next haccepted =>
        cases h
        exact .feedback haccepted
    · cases h
  · simp only [Option.bind_eq_bind, Option.bind_eq_some_iff] at h
    obtain ⟨call, hcall, h⟩ := h
    split at h
    · cases h
    · cases h
      exact .drafted hcall
  · simp only [Option.bind_eq_bind, Option.bind_eq_some_iff, Option.pure_def, Option.some.injEq] at h
    obtain ⟨call, hcall, store, hrecord, rfl⟩ := h
    exact .recorded hcall hrecord
  · cases h
    exact .submitted
  · simp only [Option.bind_eq_bind, Option.bind_eq_some_iff] at h
    obtain ⟨draft, hdraft, h⟩ := h
    split at h
    · next hstate =>
        cases h
        exact .confirmed hdraft hstate
    · cases h
  · simp only [Option.bind_eq_bind, Option.bind_eq_some_iff, Option.pure_def, Option.some.injEq] at h
    obtain ⟨draftId, hconfirmation, store, hlink, rfl⟩ := h
    exact .linked hconfirmation hlink

end Helpdesk.EmployeeAgent
