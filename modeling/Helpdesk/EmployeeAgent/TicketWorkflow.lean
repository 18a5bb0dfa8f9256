/-
  File:      Helpdesk/EmployeeAgent/TicketWorkflow.lean
  Subject:   Which changes of a conversation's state are declared.

  The machine of a generator starts from a state that was read in an earlier
  transaction; the rows are written by statements that do not ask the table. While a
  turn is active the state is COLLECTING_INFORMATION, so what a turn ends in is
  declared; what it starts from need not be: `start_turn` accepts a message in
  COLLECTING_TICKET_FIELDS.

  * `World.Sound`: what the rows and the requests say about the state;
  * `Moves`: how one step can change it;
  * `only_declared`: without a message in the ticket workflow every later state is
    reachable from every earlier one, and with one it is not;
  * `ticket_workflow_left`: a message and its cancellation leave the ticket workflow.
-/
import Helpdesk.EmployeeAgent.World

namespace Helpdesk.EmployeeAgent

open Helpdesk.Python

variable {settings : Settings} {store store' : Store} {world world' : World}

/-! ## 1. Rows of turns -/

theorem turnActive_iff {turnId : Uuid} :
    store.turnActive turnId = true ↔
      ∃ turn ∈ store.turns, turn.turnId = turnId ∧ turn.turnStatus = .active := by
  simp [Store.turnActive]

/-- A turn after an update that ends it. -/
theorem mem_updateTurn {turnId : Uuid} {change : Turn → Turn}
    (hchange : ∀ turn, (change turn).turnStatus ≠ .active) {turn : Turn}
    (h : turn ∈ (store.updateTurn turnId change).turns) (hactive : turn.turnStatus = .active) :
    turn ∈ store.turns ∧ turn.turnId ≠ turnId := by
  obtain ⟨old, hold, heq⟩ := List.mem_map.mp h
  by_cases hmatch : old.turnId = turnId ∧ old.turnStatus = .active
  · rw [if_pos (by simpa using hmatch)] at heq
    exact absurd (heq ▸ hactive) (hchange old)
  · rw [if_neg (by simpa using hmatch)] at heq
    subst heq
    exact ⟨hold, fun hid => hmatch ⟨hid, hactive⟩⟩

/-- Active turns are only ended. -/
def Store.EndsTurns (store store' : Store) : Prop :=
  ∀ turn ∈ store'.turns, turn.turnStatus = .active → turn ∈ store.turns

theorem updateTurn_endsTurns {turnId : Uuid} {change : Turn → Turn}
    (hchange : ∀ turn, (change turn).turnStatus ≠ .active) :
    store.EndsTurns (store.updateTurn turnId change) :=
  fun _ hturn hactive => (mem_updateTurn hchange hturn hactive).1

theorem cancelTurn_eq_some {turnId : Uuid} (h : cancelTurn turnId store = some store') :
    store.turnActive turnId = true ∧ store' = store.updateTurn turnId fun turn =>
      { turn with turnStatus := .cancelled, safeFailureCode := some "CLIENT_CANCELLED" } := by
  unfold cancelTurn at h
  split at h
  · next hactive => exact ⟨hactive, (Option.some.inj h).symm⟩
  · cases h

theorem cancelTurn_getD (turnId : Uuid) (store : Store) :
    (cancelTurn turnId store).getD store = store.updateTurn turnId fun turn =>
      { turn with turnStatus := .cancelled, safeFailureCode := some "CLIENT_CANCELLED" } := by
  unfold cancelTurn
  split
  · rfl
  · next hactive =>
      -- no row is active
      have hsame : ∀ turn ∈ store.turns, (if turn.turnId = turnId && turn.turnStatus = .active then
          { turn with turnStatus := .cancelled, safeFailureCode := some "CLIENT_CANCELLED" }
          else turn) = turn := by
        intro turn hturn
        refine if_neg fun hmatch => hactive (turnActive_iff.mpr ⟨turn, hturn, ?_⟩)
        simpa using hmatch
      rw [Option.getD_none, Store.updateTurn, List.map_congr_left hsame, List.map_id']

theorem finishTurn_eq_some {turnId : Uuid} {a : AgentAnswer}
    (h : finishTurn turnId a store = some store') :
    store.turnActive turnId = true ∧ ∃ change : Turn → Turn,
      (∀ turn, (change turn).turnId = turn.turnId) ∧
      (∀ turn, (change turn).turnStatus = .completed) ∧
        store' = { store.updateTurn turnId change with state := a.state } := by
  unfold finishTurn at h
  split at h
  · next hactive =>
      refine ⟨hactive, _, ?_, ?_, (Option.some.inj h).symm⟩
      · exact fun _ => rfl
      · exact fun _ => rfl
  · cases h

theorem recordResolutionFeedback_eq_ok {helpful resolved : Bool} {comment : Option String}
    (h : recordResolutionFeedback helpful resolved comment store = .ok store') :
    ∃ given : Feedback, given.resolved = resolved ∧ store.feedback.getD given = given ∧
      store.state.acceptsFeedback = true ∧
      (resolved = true → store.state ≠ .collectingTicketFields) ∧
      store' = { store with
        feedback := some given
        state := if resolved then .resolvedWithoutTicket else .collectingTicketFields } := by
  unfold recordResolutionFeedback at h
  split at h
  · cases h
  · next haccepted =>
      split at h
      · cases h
      · next hcollecting =>
          dsimp only at h
          generalize hgiven : (⟨if helpful then 5 else 1, comment, resolved⟩ : Feedback) = given at h
          by_cases hsame : store.feedback.getD given = given
          · rw [if_neg (not_not_intro hsame), hsame] at h
            refine ⟨given, hgiven ▸ rfl, hsame, by simpa using haccepted, fun hresolved hstate => ?_,
              (Except.ok.inj h).symm⟩
            exact hcollecting (by simp [hresolved, hstate])
          · rw [if_pos hsame] at h
            cases h

theorem linkDraft_eq_some {draftId : Uuid} (h : linkDraft draftId store = some store') :
    store' = { store with state := .awaitingUserConfirmation, ticketDraftId := some draftId } := by
  unfold linkDraft at h
  by_cases hdraft : store.draft.any (·.draftId = draftId) = true
  · rw [if_pos hdraft] at h
    exact (Option.some.inj h).symm
  · rw [if_neg hdraft] at h
    cases h

/-- The rows that feedback leads to: it equals the outcome that is recorded. -/
theorem recordFeedback_eq_some {call : FeedbackCall} (h : recordFeedback call store = some store') :
    ∃ given : Feedback, given.resolved = call.resolved ∧ store.feedback.getD given = given ∧
      store.state.acceptsFeedback = true ∧
      (call.resolved = true → store.state ≠ .collectingTicketFields) ∧
      store'.feedback = some given ∧ store'.turns = store.turns ∧ store'.nextId = store.nextId ∧
      store'.state = if call.resolved then .resolvedWithoutTicket else .awaitingUserConfirmation := by
  unfold recordFeedback at h
  split at h
  · next mid _ hrecord hresolved =>
      obtain ⟨given, hgiven, hsame, haccepted, hcollecting, rfl⟩ :=
        recordResolutionFeedback_eq_ok hrecord
      obtain rfl := Option.some.inj h
      refine ⟨given, hgiven, hsame, haccepted, hcollecting, rfl, rfl, rfl, ?_⟩
      rw [hresolved]
      rfl
  · next mid draftId hrecord hresolved hdraft =>
      obtain ⟨given, hgiven, hsame, haccepted, hcollecting, rfl⟩ :=
        recordResolutionFeedback_eq_ok hrecord
      obtain rfl := linkDraft_eq_some h
      refine ⟨given, hgiven, hsame, haccepted, hcollecting, rfl, rfl, rfl, ?_⟩
      rw [hresolved]
      rfl
  · cases h

/-! ## 2. The invariant -/

structure World.Sound (world : World) : Prop where
  active : ∀ turn ∈ world.store.turns, turn.turnStatus = .active →
    world.store.state = .collectingInformation
  single : ∀ turn ∈ world.store.turns, ∀ turn' ∈ world.store.turns, turn.turnStatus = .active →
    turn'.turnStatus = .active → turn.turnId = turn'.turnId
  confirmations : world.confirmations ≠ [] → confirmable world.store.state = true
  awaiting : world.store.state = .awaitingUserConfirmation →
    ∃ given, world.store.feedback = some given ∧ given.resolved = false
  closed : world.store.state = .resolvedWithoutTicket →
    ∃ given, world.store.feedback = some given ∧ given.resolved = true
  points : ∀ call ∈ world.streams, ∀ turnId point, call.phase = .turn turnId point → point.Sound

theorem created_sound (nextId : Uuid) : (created nextId).Sound where
  active _ hturn := nomatch hturn
  single _ hturn := nomatch hturn
  confirmations h := absurd rfl h
  awaiting h := nomatch h
  closed h := nomatch h
  points _ hcall := nomatch hcall

/-- How one step may change the state; `message` is what a started turn is known from. -/
inductive Moves (message : Prop) (state state' : AgentState) : Prop where
  | stays (h : state' = state)
  | started (hmessage : message) (hclosed : state.closed = false) (h : state' = .collectingInformation)
  | finished (h : state = .collectingInformation)
      (h' : state' = .collectingTicketFields ∨ state' = .awaitingResolutionConfirmation)
  | resolved (h : state = .awaitingResolutionConfirmation) (h' : state' = .resolvedWithoutTicket)
  | drafted (h : state = .awaitingResolutionConfirmation ∨ state = .collectingTicketFields)
      (h' : state' = .awaitingUserConfirmation)
  | submitted (h : state = .awaitingUserConfirmation) (h' : state' = .ticketSubmitted)

/-- **Every move is declared**, but for a message in the ticket workflow. -/
theorem Moves.reaches {message : Prop} {state state' : AgentState} (h : Moves message state state')
    (hnone : message → state ≠ .collectingTicketFields) :
    Reaches state state' := by
  cases h with
  | stays h =>
      rw [h]
      exact .refl
  | started hmessage hclosed h =>
      subst h
      have hstate := hnone hmessage
      revert hclosed hstate
      cases state <;> decide +kernel
  | finished h h' =>
      subst h
      rcases h' with rfl | rfl <;> decide +kernel
  | resolved h h' =>
      subst h h'
      decide +kernel
  | drafted h h' =>
      subst h'
      rcases h with rfl | rfl <;> decide +kernel
  | submitted h h' =>
      subst h h'
      decide +kernel

theorem linkTicket_eq_some {draftId ticketId : Uuid} (h : linkTicket draftId ticketId store = some store') :
    store' = { store with state := .ticketSubmitted, ticketId := some ticketId } := by
  unfold linkTicket at h
  split at h
  · exact (Option.some.inj h).symm
  · cases h

/-- Feedback is recorded where the outcome that is there allows it. -/
theorem recordFeedback_moves {message : Prop} (h : world.Sound) {call : FeedbackCall}
    (hrecord : recordFeedback call world.store = some store') :
    Moves message world.store.state store'.state := by
  obtain ⟨given, hgiven, hsame, haccepted, hcollecting, _, _, _, hstate⟩ :=
    recordFeedback_eq_some hrecord
  have hold : ∀ old, world.store.feedback = some old → old.resolved = call.resolved := by
    intro old hold
    rw [hold] at hsame
    exact (congrArg Feedback.resolved hsame).trans hgiven
  cases hresolved : call.resolved with
  | true =>
      rw [hresolved, if_pos rfl] at hstate
      cases hbefore : world.store.state with
      | awaitingResolutionConfirmation => exact .resolved rfl hstate
      | resolvedWithoutTicket => exact .stays hstate
      | collectingTicketFields => exact absurd hbefore (hcollecting hresolved)
      | awaitingUserConfirmation =>
          obtain ⟨old, hfeedback, hunresolved⟩ := h.awaiting hbefore
          rw [hold old hfeedback, hresolved] at hunresolved
          cases hunresolved
      | _ =>
          rw [hbefore] at haccepted
          cases haccepted
  | false =>
      rw [hresolved, if_neg Bool.false_ne_true] at hstate
      cases hbefore : world.store.state with
      | awaitingResolutionConfirmation => exact .drafted (.inl rfl) hstate
      | collectingTicketFields => exact .drafted (.inr rfl) hstate
      | awaitingUserConfirmation => exact .stays hstate
      | resolvedWithoutTicket =>
          obtain ⟨old, hfeedback, hunresolved⟩ := h.closed hbefore
          rw [hold old hfeedback, hresolved] at hunresolved
          cases hunresolved
      | _ =>
          rw [hbefore] at haccepted
          cases haccepted

/-- What a step of a generator does to the state. -/
theorem streamed_moves {message : Prop} (h : world.Sound) {call : StreamCall} {turnId : Uuid}
    {point point' : Point} {step : StreamStep} (hpoint : point.Sound)
    (hstep : StreamStepped settings call.content turnId point world.store step point' store') :
    Moves message world.store.state store'.state := by
  cases hstep with
  | resumed | answered | unanswered | timedOut | turnCancelled | unfinished | failed | cancelled
  | left | closed => exact .stays rfl
  | finished ha hfinish =>
      obtain ⟨hactive, _, _, _, rfl⟩ := finishTurn_eq_some hfinish
      obtain ⟨turn, hturn, _, hstatus⟩ := turnActive_iff.mp hactive
      subst ha
      exact .finished (h.active turn hturn hstatus) hpoint
  | handledCancel =>
      rw [cancelTurn_getD]
      exact .stays rfl
  | handledFail => exact .stays rfl

/-- **How a step changes the state.** -/
theorem step_moves {action : Action} (h : world.Sound)
    (hstep : ConversationStep settings world action world') :
    Moves (∃ index, action = .start index) world.store.state world'.store.state := by
  cases hstep.stepped with
  | message | refused | feedback | submitted | confirmed => exact .stays rfl
  | started hcall hphase hstart =>
      obtain ⟨hclosed, _, _, turn, _, _, rfl⟩ := startTurn_eq_ok hstart
      exact .started ⟨_, rfl⟩ hclosed rfl
  | streamed hcall hphase hstream =>
      have hpoint := h.points _ (List.mem_of_getElem? hcall) _ _ hphase
      exact streamed_moves h hpoint (streamStep_stepped hstream)
  | cancelled hcancel =>
      obtain ⟨_, rfl⟩ := cancelTurn_eq_some hcancel
      exact .stays rfl
  | drafted =>
      refine .stays ?_
      unfold createAgentDraft
      split <;> rfl
  | recorded hcall hrecord => exact recordFeedback_moves h hrecord
  | linked hconfirmation hlink =>
      obtain rfl := linkTicket_eq_some hlink
      have hsome : world.confirmations ≠ [] := fun hnone => by
        rw [hnone] at hconfirmation
        cases hconfirmation
      have hstate := h.confirmations hsome
      unfold confirmable at hstate
      rcases Bool.or_eq_true_iff.mp hstate with hawaiting | hsubmitted
      · exact .submitted (of_decide_eq_true hawaiting) rfl
      · exact .stays (of_decide_eq_true hsubmitted).symm

/-! ## 3. What keeps the invariant -/

theorem World.Sound.noActive (h : world.Sound) (hstate : world.store.state ≠ .collectingInformation) :
    ∀ turn ∈ world.store.turns, turn.turnStatus ≠ .active :=
  fun turn hturn hactive => hstate (h.active turn hturn hactive)

/-- Rows in the same state, but for turns that end. -/
theorem World.Sound.quiet (h : world.Sound) (hturns : world.store.EndsTurns store')
    (hstate : store'.state = world.store.state) (hfeedback : store'.feedback = world.store.feedback) :
    ({ world with store := store' } : World).Sound where
  active turn hturn hactive := hstate.trans (h.active turn (hturns turn hturn hactive) hactive)
  single turn hturn turn' hturn' hactive hactive' :=
    h.single turn (hturns turn hturn hactive) turn' (hturns turn' hturn' hactive') hactive hactive'
  confirmations hsome := by
    dsimp only
    rw [hstate]
    exact h.confirmations hsome
  awaiting hawaiting := by
    dsimp only
    rw [hfeedback]
    exact h.awaiting (hstate.symm.trans hawaiting)
  closed hclosed := by
    dsimp only
    rw [hfeedback]
    exact h.closed (hstate.symm.trans hclosed)
  points := h.points

/-- A generator goes on. -/
theorem World.Sound.setStream (h : world.Sound) {index : Nat} {call : StreamCall}
    (hcall : ∀ turnId point, call.phase = .turn turnId point → point.Sound) :
    ({ world with streams := world.streams.set index call } : World).Sound where
  active := h.active
  single := h.single
  confirmations := h.confirmations
  awaiting := h.awaiting
  closed := h.closed
  points other hother := by
    rcases List.mem_or_eq_of_mem_set hother with hold | rfl
    · exact h.points other hold
    · exact hcall

/-- No turn is active and the state is another one. -/
theorem World.Sound.settled (h : world.Sound) (hturns : store'.turns = world.store.turns)
    (hnone : ∀ turn ∈ world.store.turns, turn.turnStatus ≠ .active)
    (hconfirmations : world.confirmations ≠ [] → confirmable store'.state = true)
    (hawaiting : store'.state = .awaitingUserConfirmation →
      ∃ given, store'.feedback = some given ∧ given.resolved = false)
    (hclosed : store'.state = .resolvedWithoutTicket →
      ∃ given, store'.feedback = some given ∧ given.resolved = true) :
    ({ world with store := store' } : World).Sound where
  active turn hturn hactive := absurd hactive (hnone turn (hturns ▸ hturn))
  single turn hturn _ _ hactive _ := absurd hactive (hnone turn (hturns ▸ hturn))
  confirmations := hconfirmations
  awaiting := hawaiting
  closed := hclosed
  points := h.points

theorem World.Sound.recorded (h : world.Sound) {call : FeedbackCall}
    (hrecord : recordFeedback call world.store = some store') :
    ({ world with store := store' } : World).Sound := by
  have hmoves : Moves False world.store.state store'.state := recordFeedback_moves h hrecord
  obtain ⟨given, hgiven, _, haccepted, _, hfeedback, hturns, _, hstate⟩ :=
    recordFeedback_eq_some hrecord
  have hother : world.store.state ≠ .collectingInformation := by
    intro hstate
    rw [hstate] at haccepted
    cases haccepted
  refine h.settled hturns (h.noActive hother) (fun hsome => ?_) (fun hawaiting => ?_) fun hclosed => ?_
  · have hbefore := h.confirmations hsome
    cases hmoves with
    | stays hsame => rwa [hsame]
    | started hmessage => exact hmessage.elim
    | finished hcollecting => exact absurd hcollecting hother
    | resolved hresolution =>
        rw [hresolution] at hbefore
        cases hbefore
    | drafted hticket hafter =>
        rw [hafter]
        rfl
    | submitted _ hafter =>
        rw [hafter]
        rfl
  · refine ⟨given, hfeedback, hgiven.trans ?_⟩
    cases hresolved : call.resolved with
    | false => rfl
    | true =>
        rw [hresolved, if_pos rfl, hawaiting] at hstate
        cases hstate
  · refine ⟨given, hfeedback, hgiven.trans ?_⟩
    cases hresolved : call.resolved with
    | true => rfl
    | false =>
        rw [hresolved, if_neg Bool.false_ne_true, hclosed] at hstate
        cases hstate

/-- A state in which a ticket is confirmed accepts no message. -/
theorem closed_of_confirmable {state : AgentState} (h : confirmable state = true) :
    state.closed = true := by
  unfold confirmable at h
  rcases Bool.or_eq_true_iff.mp h with hstate | hstate
  · rw [of_decide_eq_true hstate]
    rfl
  · rw [of_decide_eq_true hstate]
    rfl

/-- A turn is started: it is the only one that is active. -/
theorem World.Sound.started (h : world.Sound) {turnId : Uuid}
    (hstart : startTurn world.store = .ok (turnId, store')) :
    ({ world with store := store' } : World).Sound := by
  obtain ⟨hclosed, hnone, _, turn, _, _, rfl⟩ := startTurn_eq_ok hstart
  have hnew : ∀ other ∈ world.store.turns ++ [turn], other.turnStatus = .active → other = turn := by
    intro other hother hactive
    rcases List.mem_append.mp hother with hold | hadded
    · exact absurd hactive (hnone other hold)
    · exact List.mem_singleton.mp hadded
  exact {
    active := fun _ _ _ => rfl
    single := fun turn₁ hturn₁ turn₂ hturn₂ hactive₁ hactive₂ => by
      rw [hnew turn₁ hturn₁ hactive₁, hnew turn₂ hturn₂ hactive₂]
    confirmations := fun hsome => by
      rw [closed_of_confirmable (h.confirmations hsome)] at hclosed
      cases hclosed
    awaiting := fun hawaiting => nomatch hawaiting
    closed := fun hclosed => nomatch hclosed
    points := h.points }

/-- A turn is finished: no other one was active. -/
theorem World.Sound.finished (h : world.Sound) {turnId : Uuid} {a : AgentAnswer} (ha : a.Final)
    (hfinish : finishTurn turnId a world.store = some store') :
    ({ world with store := store' } : World).Sound := by
  obtain ⟨hactive, change, _, hchange, rfl⟩ := finishTurn_eq_some hfinish
  obtain ⟨turn, hturn, hid, hstatus⟩ := turnActive_iff.mp hactive
  have hcollecting := h.active turn hturn hstatus
  have hends : ∀ turn, (change turn).turnStatus ≠ .active := fun turn => by
    rw [hchange turn]
    exact TurnStatus.noConfusion
  have hnone : ∀ other ∈ (world.store.updateTurn turnId change).turns,
      other.turnStatus ≠ .active := by
    intro other hother hotherActive
    obtain ⟨hold, hne⟩ := mem_updateTurn hends hother hotherActive
    exact hne ((h.single other hold turn hturn hotherActive hstatus).trans hid)
  exact {
    active := fun other hother hotherActive => absurd hotherActive (hnone other hother)
    single := fun other hother _ _ hotherActive _ => absurd hotherActive (hnone other hother)
    confirmations := fun hsome => by
      have hbefore := h.confirmations hsome
      rw [hcollecting] at hbefore
      cases hbefore
    awaiting := fun hawaiting => by
      have hstate : a.state = .awaitingUserConfirmation := hawaiting
      rcases ha with ha | ha <;> rw [ha] at hstate <;> cases hstate
    closed := fun hclosed => by
      have hstate : a.state = .resolvedWithoutTicket := hclosed
      rcases ha with ha | ha <;> rw [ha] at hstate <;> cases hstate
    points := h.points }

theorem World.Sound.streamed (h : world.Sound) {call : StreamCall} {turnId : Uuid}
    {point point' : Point} {step : StreamStep} (hpoint : point.Sound)
    (hstep : StreamStepped settings call.content turnId point world.store step point' store') :
    ({ world with store := store' } : World).Sound := by
  cases hstep with
  | resumed | answered | unanswered | timedOut | turnCancelled | unfinished | failed | cancelled
  | left | closed => exact h
  | finished ha hfinish =>
      subst ha
      exact h.finished hpoint hfinish
  | handledCancel =>
      rw [cancelTurn_getD]
      exact h.quiet (updateTurn_endsTurns fun _ => TurnStatus.noConfusion) rfl rfl
  | handledFail => exact h.quiet (updateTurn_endsTurns fun _ => TurnStatus.noConfusion) rfl rfl

/-- **Every step keeps the invariant.** -/
theorem World.Sound.step {action : Action} (h : world.Sound)
    (hstep : ConversationStep settings world action world') : world'.Sound := by
  cases hstep.stepped with
  | message =>
      refine ⟨h.active, h.single, h.confirmations, h.awaiting, h.closed, fun call hcall => ?_⟩
      rcases List.mem_append.mp hcall with hold | hnew
      · exact h.points call hold
      · obtain rfl := List.mem_singleton.mp hnew
        intro turnId point hphase
        cases hphase
  | refused => exact h.setStream fun _ _ hphase => nomatch hphase
  | started hcall hphase hstart =>
      refine World.Sound.setStream (h.started hstart) fun _ point hpoint => ?_
      cases hpoint
      trivial
  | streamed hcall hphase hstream =>
      have hpoint := h.points _ (List.mem_of_getElem? hcall) _ _ hphase
      have hstepped := streamStep_stepped hstream
      refine World.Sound.setStream (h.streamed hpoint hstepped) fun _ point hpoint' => ?_
      cases hpoint'
      exact hstepped.sound hpoint
  | cancelled hcancel =>
      obtain ⟨_, rfl⟩ := cancelTurn_eq_some hcancel
      exact h.quiet (updateTurn_endsTurns fun _ => TurnStatus.noConfusion) rfl rfl
  | feedback => exact ⟨h.active, h.single, h.confirmations, h.awaiting, h.closed, h.points⟩
  | drafted =>
      have hrows : (createAgentDraft world.store).2.turns = world.store.turns ∧
          (createAgentDraft world.store).2.state = world.store.state ∧
          (createAgentDraft world.store).2.feedback = world.store.feedback := by
        unfold createAgentDraft
        split <;> exact ⟨rfl, rfl, rfl⟩
      obtain ⟨hturns, hstate, hfeedback⟩ := hrows
      have hsound := h.quiet (fun turn hturn _ => hturns ▸ hturn) hstate hfeedback
      exact ⟨hsound.active, hsound.single, hsound.confirmations, hsound.awaiting, hsound.closed,
        hsound.points⟩
  | recorded hcall hrecord =>
      have hsound := h.recorded hrecord
      exact ⟨hsound.active, hsound.single, hsound.confirmations, hsound.awaiting, hsound.closed,
        hsound.points⟩
  | submitted => exact h.quiet (fun _ hturn _ => hturn) rfl rfl
  | confirmed hdraft hstate =>
      exact ⟨h.active, h.single, fun _ => hstate, h.awaiting, h.closed, h.points⟩
  | linked hconfirmation hlink =>
      obtain rfl := linkTicket_eq_some hlink
      have hsome : world.confirmations ≠ [] := fun hnone => by
        rw [hnone] at hconfirmation
        cases hconfirmation
      have hother : world.store.state ≠ .collectingInformation := by
        intro hstate
        have hbefore := h.confirmations hsome
        rw [hstate] at hbefore
        cases hbefore
      refine ⟨fun turn hturn hactive => ?_, fun turn hturn _ _ hactive _ => ?_, fun _ => rfl,
        (fun hawaiting => nomatch hawaiting), (fun hclosed => nomatch hclosed), h.points⟩
      · exact absurd hactive (h.noActive hother turn hturn)
      · exact absurd hactive (h.noActive hother turn hturn)

/-! ## 4. Declared changes -/

theorem sound_of_run {nextId : Uuid} {actions : List Action}
    (hr : Run (ConversationStep settings) (created nextId) actions world) : world.Sound :=
  hr.invariant (created_sound nextId) fun _ _ _ hsound hstep => hsound.step hstep

/-- No message is accepted while the conversation is in the ticket workflow. -/
def NoTicketMessage (world : World) : Action → Prop
  | .start _ => world.store.state ≠ .collectingTicketFields
  | _ => True

instance (world : World) (action : Action) : Decidable (NoTicketMessage world action) := by
  unfold NoTicketMessage
  split <;> infer_instance

/-- **A step that is no message in the ticket workflow is declared.** -/
theorem step_reaches {action : Action} (h : world.Sound) (hmessage : NoTicketMessage world action)
    (hstep : ConversationStep settings world action world') :
    Reaches world.store.state world'.store.state := by
  refine (step_moves h hstep).reaches fun hstart => ?_
  obtain ⟨index, rfl⟩ := hstart
  exact hmessage

/-- A later state of a run without such messages is reachable from an earlier one. -/
theorem run_reaches {actions : List Action} (h : world.Sound)
    (hr : Run (Guarded NoTicketMessage (ConversationStep settings)) world actions world') :
    world'.Sound ∧ Reaches world.store.state world'.store.state := by
  induction hr with
  | start => exact ⟨h, .refl⟩
  | next _ hs ih =>
      obtain ⟨hsound, hreaches⟩ := ih
      exact ⟨hsound.step hs.2, hreaches.trans (step_reaches hsound hs.1 hs.2)⟩

/-- **A message in the ticket workflow is answered**: the turn is started. -/
theorem ticket_message_starts {action : Action} (h : world.Sound)
    (hmessage : ¬ NoTicketMessage world action) (hstep : ConversationStep settings world action world') :
    world.store.state = .collectingTicketFields ∧ world'.store.state = .collectingInformation := by
  cases hstep.stepped with
  | started _ _ hstart =>
      have hticket : world.store.state = .collectingTicketFields := not_not.mp hmessage
      obtain ⟨_, _, _, _, _, _, rfl⟩ := startTurn_eq_ok hstart
      exact ⟨hticket, rfl⟩
  | refused _ _ hstart =>
      have hticket : world.store.state = .collectingTicketFields := not_not.mp hmessage
      have hother : world.store.state ≠ .collectingInformation := by
        rw [hticket]
        exact AgentState.noConfusion
      -- `start_turn` has no reason to refuse
      have hnone : world.store.turns.any (·.turnStatus = .active) = false :=
        List.any_eq_false.mpr fun turn hturn hactive =>
          h.noActive hother turn hturn (of_decide_eq_true hactive)
      have hclosed : world.store.state.closed = false := by
        rw [hticket]
        rfl
      simp [startTurn, hclosed, hnone] at hstart
  | message | streamed | cancelled | feedback | drafted | recorded | submitted | confirmed
  | linked => exact absurd trivial hmessage

/-- Everything has to be escalated. -/
def escalating : Settings where
  minimumEvidenceScore := 0
  streamChunkCharacters := 500
  containsPromptInjection _ := false
  requiresImmediateEscalation _ := true

/-- The first message is answered: the employee has to continue with a ticket. -/
def firstMessage : List Action :=
  [Action.message "my wallet was stolen", .start 0] ++
    List.replicate 4 (.stream 0 .resume) ++ [.stream 0 .finish, .stream 0 .resume]

/-- **The changes of the state are declared** in every run without a message in the ticket
    workflow: later states are reachable from earlier ones, and a conversation that is in the
    ticket workflow stays there. A message in it is never declared. -/
theorem only_declared {nextId : Uuid} :
    (∀ (actions : List Action) (world : World),
      Run (Guarded NoTicketMessage (ConversationStep settings)) (created nextId) actions world →
      ∀ (later : List Action) (world' : World),
        Run (Guarded NoTicketMessage (ConversationStep settings)) world later world' →
        Reaches world.store.state world'.store.state ∧
          (world.store.state = .collectingTicketFields →
            world'.store.state ∈ [AgentState.collectingTicketFields, .ticketDraftReady,
              .awaitingUserConfirmation, .ticketSubmitted])) ∧
    (∀ (actions : List Action) (world : World),
      Run (ConversationStep settings) (created nextId) actions world →
      ∀ (action : Action) (world' : World), ConversationStep settings world action world' →
        ¬ NoTicketMessage world action → ¬ Reaches world.store.state world'.store.state) := by
  refine ⟨fun actions world hr later world' hlater => ?_,
    fun actions world hr action world' hstep hmessage => ?_⟩
  · have hreaches := (run_reaches (sound_of_run hr.unguarded) hlater).2
    refine ⟨hreaches, fun hticket => ?_⟩
    rw [hticket] at hreaches
    have hmem := reaches_iff.mp hreaches
    revert hmem
    cases world'.store.state <;> decide +kernel
  · obtain ⟨hticket, hinformation⟩ := ticket_message_starts (sound_of_run hr) hmessage hstep
    rw [hticket, hinformation]
    decide +kernel

theorem only_declared_sample :
    ∃ world world' : World, world.store.state = .collectingTicketFields ∧
      world'.store.state = .awaitingUserConfirmation ∧
      Reaches world.store.state world'.store.state := by
  have hrun : ∃ worlds : World × World,
      (do let world ← firstMessage.foldlM (fun world action =>
            if NoTicketMessage world action then world.next escalating action else none) (created 1)
          let world' ← [Action.feedback true false none, .draft 0, .record 0].foldlM
            (fun world action =>
              if NoTicketMessage world action then world.next escalating action else none) world
          return (world, world')) = some worlds ∧
        (worlds.1.store.state, worlds.2.store.state) =
          (.collectingTicketFields, .awaitingUserConfirmation) := by
    rw [← Option.map_eq_some_iff]
    decide +kernel
  obtain ⟨worlds, hrun, hstates⟩ := hrun
  simp only [Option.bind_eq_bind, Option.bind_eq_some_iff, Option.pure_def, Option.some.injEq] at hrun
  obtain ⟨world, hworld, world', hlater, rfl⟩ := hrun
  obtain ⟨hstate, hstate'⟩ := Prod.mk.inj hstates
  exact ⟨world, world', hstate, hstate', (only_declared.1 _ world (guarded_run_of_foldlM hworld) _
    world' (guarded_run_of_foldlM hlater)).1⟩

/-- A message in the ticket workflow starts a turn; its cancellation leaves the conversation
    where it collects information, and the next message is answered. -/
theorem ticket_workflow_left :
    ¬ ∀ (settings : Settings) (nextId : Uuid) (actions later : List Action) (world world' : World),
      Run (ConversationStep settings) (created nextId) actions world →
      Run (ConversationStep settings) world later world' →
      Reaches world.store.state world'.store.state := by
  intro hclaim
  have hrun : ∃ worlds : World × World,
      (do let world ← firstMessage.foldlM (World.next escalating) (created 1)
          let world' ← [Action.message "so what now", .start 1, .cancelTurn 2].foldlM
            (World.next escalating) world
          return (world, world')) = some worlds ∧
        (worlds.1.store.state, worlds.2.store.state, worlds.2.store.turns.map (·.turnStatus)) =
          (.collectingTicketFields, .collectingInformation, [.completed, .cancelled]) := by
    rw [← Option.map_eq_some_iff]
    decide +kernel
  obtain ⟨worlds, hrun, hstates⟩ := hrun
  simp only [Option.bind_eq_bind, Option.bind_eq_some_iff, Option.pure_def, Option.some.injEq] at hrun
  obtain ⟨world, hworld, world', hlater, rfl⟩ := hrun
  simp only [Prod.mk.injEq] at hstates
  have hreaches := hclaim escalating 1 _ _ world world' (run_of_foldlM hworld) (run_of_foldlM hlater)
  rw [hstates.1, hstates.2.1] at hreaches
  revert hreaches
  decide +kernel

end Helpdesk.EmployeeAgent
