/-
  File:      Helpdesk/EmployeeAgent/ActiveTurns.lean
  Subject:   Which turns are active once their generator has ended.

  The handlers of the generator end its turn, but they are not there for everything: a
  generator that its consumer closes gets a `GeneratorExit`, which is no `Exception` and
  no cancellation, and between the commit of `start_turn` and the `try` there is an
  `await`.

  * `World.Tracked`: each turn that is active belongs to a call;
  * `settles`: a step ends the turn, goes on, or leaves it as it is;
  * `ended_settled`: without a closed generator and without an exception before the `try`,
    no turn is active whose generator has ended; each such step leaves one, if it is not
    cancelled already;
  * `closed_turn_active`: a closed generator, and the message that is refused then.
-/
import Helpdesk.EmployeeAgent.TicketWorkflow

namespace Helpdesk.EmployeeAgent

open Helpdesk.Python

variable {settings : Settings} {content : String} {turnId : Uuid} {point point' : Point}
  {step : StreamStep} {store store' : Store} {world world' : World}

/-! ## 1. Turns that are active -/

theorem turnActive_eq_false_iff :
    store.turnActive turnId = false ↔
      ∀ turn ∈ store.turns, turn.turnId = turnId → turn.turnStatus ≠ .active := by
  rw [Bool.eq_false_iff, ne_eq, turnActive_iff]
  constructor
  · exact fun h turn hturn hid hactive => h ⟨turn, hturn, hid, hactive⟩
  · exact fun h ⟨turn, hturn, hid, hactive⟩ => h turn hturn hid hactive

theorem Store.EndsTurns.inactive (h : store.EndsTurns store')
    (hactive : store.turnActive turnId = false) : store'.turnActive turnId = false := by
  rw [turnActive_eq_false_iff] at hactive ⊢
  exact fun turn hturn hid hstatus => hactive turn (h turn hturn hstatus) hid hstatus

theorem updateTurn_inactive {change : Turn → Turn}
    (hchange : ∀ turn, (change turn).turnStatus ≠ .active) :
    (store.updateTurn turnId change).turnActive turnId = false :=
  turnActive_eq_false_iff.mpr fun _ hturn hid hstatus =>
    (mem_updateTurn hchange hturn hstatus).2 hid

/-- The identifiers of the turns. -/
def Store.turnIds (store : Store) : List Uuid := store.turns.map (·.turnId)

theorem updateTurn_turnIds {change : Turn → Turn}
    (hchange : ∀ turn, (change turn).turnId = turn.turnId) :
    (store.updateTurn turnId change).turnIds = store.turnIds := by
  rw [Store.turnIds, Store.updateTurn, List.map_map]
  refine List.map_congr_left fun turn _ => ?_
  show (if turn.turnId = turnId && turn.turnStatus = .active then change turn else turn).turnId =
    turn.turnId
  split
  · exact hchange turn
  · rfl

/-- What every step but a new turn does to the turns: it ends some of them. -/
structure Store.Settles (store store' : Store) : Prop where
  ends : store.EndsTurns store'
  ids : store'.turnIds = store.turnIds
  nextId : store.nextId ≤ store'.nextId

theorem Store.Settles.refl (store : Store) : store.Settles store :=
  ⟨fun _ hturn _ => hturn, rfl, Nat.le_refl _⟩

theorem Store.Settles.of_turns (hturns : store'.turns = store.turns)
    (hnext : store.nextId ≤ store'.nextId) : store.Settles store' :=
  ⟨fun _ hturn _ => hturns ▸ hturn, congrArg (List.map Turn.turnId) hturns, hnext⟩

theorem updateTurn_settles {change : Turn → Turn}
    (hids : ∀ turn, (change turn).turnId = turn.turnId)
    (hchange : ∀ turn, (change turn).turnStatus ≠ .active) :
    store.Settles (store.updateTurn turnId change) :=
  ⟨updateTurn_endsTurns hchange, updateTurn_turnIds hids, Nat.le_refl _⟩

/-! ## 2. Steps of a generator -/

/-- The points at which the turn has still to be ended. -/
def Point.busy : Point → Bool
  | .done | .cancelled | .ended => false
  | .opened _ | .collecting _ | .classified _ | .searching _ | .answering _ | .streaming _ _
  | .finishing _ | .cancelling | .failing => true

theorem stream_busy (a : AgentAnswer) : (stream settings a).busy = true := by
  unfold stream
  split <;> rfl

theorem advanced_busy {machine target : AgentState} {next : AgentState → Point}
    (hnext : ∀ machine, (next machine).busy = true) : (advanced machine target next).busy = true := by
  unfold advanced
  split
  · exact hnext _
  · rfl

/-- The generator has only to return. -/
def Point.Last (point : Point) : Prop := point = .done ∨ point = .cancelled

theorem Point.Last.not_busy (h : point.Last) : point.busy = false := by
  rcases h with rfl | rfl <;> rfl

/-- The generator returns from its last events only. -/
theorem resume_busy (h : resume settings content point = some point') :
    point'.busy = true ∨ (point.Last ∧ point' = .ended) := by
  unfold resume at h
  split at h
  · split at h
    · obtain rfl := Option.some.inj h
      exact .inl (advanced_busy fun _ => rfl)
    · obtain rfl := Option.some.inj h
      exact .inl rfl
  · split at h
    · obtain rfl := Option.some.inj h
      exact .inl (stream_busy _)
    · obtain rfl := Option.some.inj h
      exact .inl (advanced_busy fun _ => rfl)
  · split at h
    · obtain rfl := Option.some.inj h
      exact .inl (advanced_busy fun _ => stream_busy _)
    · split at h
      · obtain rfl := Option.some.inj h
        exact .inl (advanced_busy fun _ => stream_busy _)
      · obtain rfl := Option.some.inj h
        exact .inl (advanced_busy fun _ => rfl)
  · obtain rfl := Option.some.inj h
    exact .inl rfl
  · obtain rfl := Option.some.inj h
    exact .inl rfl
  · obtain rfl := Option.some.inj h
    exact .inl rfl
  · exact .inr ⟨.inl rfl, (Option.some.inj h).symm⟩
  · exact .inr ⟨.inr rfl, (Option.some.inj h).symm⟩
  all_goals cases h

/-- No handler runs: the consumer closes the generator, or what happens is not yet in the
    `try`. -/
def Leaves : StreamStep → Point → Prop
  | .close, _ => True
  | .fail, point | .cancel, point => ∃ machine, point = .opened machine
  | .resume, _ | .answered _, _ | .timeout, _ | .turnCancelled, _ | .finish, _ | .handle, _ => False

instance (step : StreamStep) (point : Point) : Decidable (Leaves step point) := by
  have hopened : Decidable (∃ machine, point = .opened machine) :=
    match point with
    | .opened machine => .isTrue ⟨machine, rfl⟩
    | .collecting _ | .classified _ | .searching _ | .answering _ | .streaming _ _ | .finishing _
    | .done | .cancelled | .cancelling | .failing | .ended => .isFalse fun ⟨_, h⟩ => nomatch h
  unfold Leaves
  split <;> infer_instance

theorem leaves_stepped (hleaves : Leaves step point)
    (h : StreamStepped settings content turnId point store step point' store') :
    point' = .ended ∧ store' = store := by
  cases h with
  | left | closed => exact ⟨rfl, rfl⟩
  | failed htry | cancelled htry =>
      obtain ⟨machine, rfl⟩ := hleaves
      cases htry
  | _ => exact hleaves.elim

/-- **What becomes of the turn**: unless no handler runs, it is over once the generator has
    nothing left to do for it. -/
theorem stepped_settled (hquiet : point.Last → store.turnActive turnId = false)
    (hleaves : ¬ Leaves step point)
    (h : StreamStepped settings content turnId point store step point' store') :
    point'.busy = true ∨ store'.turnActive turnId = false := by
  cases h with
  | resumed hresume =>
      obtain hbusy | ⟨hlast, _⟩ := resume_busy hresume
      · exact .inl hbusy
      · exact .inr (hquiet hlast)
  | answered => exact .inl (stream_busy _)
  | timedOut => exact .inl (advanced_busy fun _ => stream_busy _)
  | unanswered | unfinished | failed | cancelled => exact .inl rfl
  | turnCancelled _ hactive => exact .inr hactive
  | finished _ hfinish =>
      obtain ⟨_, change, _, hchange, rfl⟩ := finishTurn_eq_some hfinish
      exact .inr (updateTurn_inactive fun turn => by
        rw [hchange turn]
        exact TurnStatus.noConfusion)
  | left hstep hpoint =>
      rcases hpoint with hopened | hcancelled
      · rcases hstep with rfl | rfl
        · exact absurd hopened hleaves
        · exact absurd hopened hleaves
      · exact .inr (hquiet (.inr hcancelled))
  | closed => exact absurd trivial hleaves
  | handledCancel =>
      rw [cancelTurn_getD]
      exact .inr (updateTurn_inactive fun _ => TurnStatus.noConfusion)
  | handledFail => exact .inr (updateTurn_inactive fun _ => TurnStatus.noConfusion)

theorem stepped_settles (h : StreamStepped settings content turnId point store step point' store') :
    store.Settles store' := by
  cases h with
  | resumed | answered | unanswered | timedOut | turnCancelled | unfinished | failed | cancelled
  | left | closed => exact .refl store
  | finished _ hfinish =>
      obtain ⟨_, change, hids, hchange, rfl⟩ := finishTurn_eq_some hfinish
      have hsettles : store.Settles (store.updateTurn turnId change) :=
        updateTurn_settles hids fun turn => by
          rw [hchange turn]
          exact TurnStatus.noConfusion
      exact ⟨hsettles.ends, hsettles.ids, hsettles.nextId⟩
  | handledCancel =>
      rw [cancelTurn_getD]
      exact updateTurn_settles (fun _ => rfl) fun _ => TurnStatus.noConfusion
  | handledFail => exact updateTurn_settles (fun _ => rfl) fun _ => TurnStatus.noConfusion

/-! ## 3. What is known of every run -/

/-- `Over` holds of the points at which the turn of a call is not active any more. -/
structure World.Tracked (Over : Point → Prop) (world : World) : Prop where
  ids : world.store.turnIds.Nodup
  fresh : ∀ turnId ∈ world.store.turnIds, turnId < world.store.nextId
  /-- a call has its row -/
  rows : ∀ call ∈ world.streams, ∀ turnId point, call.phase = .turn turnId point →
    turnId ∈ world.store.turnIds
  /-- an active turn has its call -/
  calls : ∀ turn ∈ world.store.turns, turn.turnStatus = .active →
    ∃ call ∈ world.streams, ∃ point, call.phase = .turn turn.turnId point
  inactive : ∀ call ∈ world.streams, ∀ turnId point, call.phase = .turn turnId point →
    Over point → world.store.turnActive turnId = false

variable {Over : Point → Prop}

theorem created_tracked (nextId : Uuid) : (created nextId).Tracked Over where
  ids := List.nodup_nil
  fresh _ hid := absurd hid List.not_mem_nil
  rows _ hcall := absurd hcall List.not_mem_nil
  calls _ hturn := absurd hturn List.not_mem_nil
  inactive _ hcall := absurd hcall List.not_mem_nil

/-- Turns end, and the calls are the same. -/
theorem World.Tracked.settles (h : world.Tracked Over) (hstore : world.store.Settles store') :
    ({ world with store := store' } : World).Tracked Over where
  ids := hstore.ids.symm ▸ h.ids
  fresh turnId hid := Nat.lt_of_lt_of_le (h.fresh turnId (hstore.ids ▸ hid)) hstore.nextId
  rows call hcall turnId point hphase := hstore.ids.symm ▸ h.rows call hcall turnId point hphase
  calls turn hturn hactive := h.calls turn (hstore.ends turn hturn hactive) hactive
  inactive call hcall turnId point hphase hover :=
    hstore.ends.inactive (h.inactive call hcall turnId point hphase hover)

/-- Only the calls and the rows of the turns are asked. -/
theorem World.Tracked.of_eq (h : world.Tracked Over) (hstore : world'.store = world.store)
    (hstreams : world'.streams = world.streams) : world'.Tracked Over := by
  constructor
  · exact hstore ▸ h.ids
  · exact hstore ▸ h.fresh
  · exact hstore ▸ hstreams ▸ h.rows
  · exact hstore ▸ hstreams ▸ h.calls
  · exact hstore ▸ hstreams ▸ h.inactive

/-- The calls after one of them is replaced. -/
theorem mem_set_or {calls : List StreamCall} {index : Nat} {old new call : StreamCall}
    (hold : calls[index]? = some old) (hcall : call ∈ calls) :
    call ∈ calls.set index new ∨ call = old := by
  obtain ⟨position, hposition⟩ := List.mem_iff_getElem?.mp hcall
  by_cases hsame : position = index
  · subst hsame
    exact .inr (Option.some.inj (hposition.symm.trans hold))
  · refine .inl (List.mem_iff_getElem?.mpr ⟨position, ?_⟩)
    rw [List.getElem?_set_ne (Ne.symm hsame)]
    exact hposition

theorem mem_set_self {calls : List StreamCall} {index : Nat} {old new : StreamCall}
    (hold : calls[index]? = some old) : new ∈ calls.set index new := by
  refine List.mem_iff_getElem?.mpr ⟨index, List.getElem?_set_self ?_⟩
  exact (List.getElem?_eq_some_iff.mp hold).1

/-- A call goes on with the turn that it has. -/
theorem World.Tracked.set {index : Nat} {call call' : StreamCall} (h : world.Tracked Over)
    (hcall : world.streams[index]? = some call)
    (hrows : ∀ turnId point, call'.phase = .turn turnId point → turnId ∈ world.store.turnIds)
    (hkeeps : ∀ turnId point, call.phase = .turn turnId point →
      ∃ point', call'.phase = .turn turnId point')
    (hover : ∀ turnId point, call'.phase = .turn turnId point → Over point →
      world.store.turnActive turnId = false) :
    ({ world with streams := world.streams.set index call' } : World).Tracked Over where
  ids := h.ids
  fresh := h.fresh
  rows other hother turnId point hphase := by
    rcases List.mem_or_eq_of_mem_set hother with hold | rfl
    · exact h.rows other hold turnId point hphase
    · exact hrows turnId point hphase
  calls turn hturn hactive := by
    obtain ⟨other, hother, point, hphase⟩ := h.calls turn hturn hactive
    rcases mem_set_or hcall hother with hkept | rfl
    · exact ⟨other, hkept, point, hphase⟩
    · obtain ⟨point', hphase'⟩ := hkeeps _ _ hphase
      exact ⟨call', mem_set_self hcall, point', hphase'⟩
  inactive other hother turnId point hphase hpoint := by
    rcases List.mem_or_eq_of_mem_set hother with hold | rfl
    · exact h.inactive other hold turnId point hphase hpoint
    · exact hover turnId point hphase hpoint

/-- A turn is started for a call. -/
theorem World.Tracked.started {index : Nat} {call : StreamCall} {machine : AgentState}
    (h : world.Tracked Over) (hbusy : ∀ point, Over point → point.busy = false)
    (hcall : world.streams[index]? = some call)
    (hstart : startTurn world.store = .ok (turnId, store')) :
    ({ world with
      store := store'
      streams := world.streams.set index { call with phase := .turn turnId (.opened machine) } } :
      World).Tracked Over := by
  obtain ⟨_, hnone, rfl, turn, hid, _, rfl⟩ := startTurn_eq_ok hstart
  have hids : (world.store.turns ++ [turn]).map (·.turnId) =
      world.store.turnIds ++ [world.store.nextId] := by
    rw [List.map_append, List.map_singleton, hid]
    rfl
  constructor
  · show ((world.store.turns ++ [turn]).map (·.turnId)).Nodup
    rw [hids]
    refine List.nodup_append.mpr ⟨h.ids, List.nodup_singleton _, fun old hold new hnew heq => ?_⟩
    rw [List.mem_singleton.mp hnew] at heq
    exact absurd (h.fresh old hold) (heq ▸ Nat.lt_irrefl _)
  · intro known hknown
    have hknown : known ∈ (world.store.turns ++ [turn]).map (·.turnId) := hknown
    rw [hids] at hknown
    rcases List.mem_append.mp hknown with hold | hnew
    · exact Nat.lt_succ_of_lt (h.fresh known hold)
    · rw [List.mem_singleton.mp hnew]
      exact Nat.lt_succ_self _
  · intro other hother turnId point hother'
    show turnId ∈ (world.store.turns ++ [turn]).map (·.turnId)
    rw [hids]
    rcases List.mem_or_eq_of_mem_set hother with hold | rfl
    · exact List.mem_append_left _ (h.rows other hold turnId point hother')
    · cases hother'
      exact List.mem_append_right _ (List.mem_singleton_self _)
  · intro active hactive hstatus
    rcases List.mem_append.mp hactive with hold | hnew
    · exact absurd hstatus (hnone active hold)
    · rw [List.mem_singleton.mp hnew, hid]
      exact ⟨_, mem_set_self hcall, _, rfl⟩
  · intro other hother turnId point hother' hpoint
    rcases List.mem_or_eq_of_mem_set hother with hold | rfl
    · have hrow := h.rows other hold turnId point hother'
      refine turnActive_eq_false_iff.mpr fun active hactive hid' hstatus => ?_
      rcases List.mem_append.mp hactive with hmem | hnew
      · exact hnone active hmem hstatus
      · -- the new turn has another identifier
        rw [List.mem_singleton.mp hnew, hid] at hid'
        exact absurd (h.fresh turnId hrow) (hid' ▸ Nat.lt_irrefl _)
    · cases hother'
      cases hbusy _ hpoint

/-- No turn that is active is left without a handler. -/
def StreamPhase.Graceful (phase : StreamPhase) (step : StreamStep) (store : Store) : Prop :=
  match phase with
  | .turn turnId point => Leaves step point → store.turnActive turnId = false
  | .checked _ | .refused => True

instance (phase : StreamPhase) (step : StreamStep) (store : Store) :
    Decidable (phase.Graceful step store) := by
  unfold StreamPhase.Graceful
  split <;> infer_instance

def Graceful (world : World) : Action → Prop
  | .stream index step =>
      ∀ call ∈ world.streams[index]?, call.phase.Graceful step world.store
  | _ => True

instance (world : World) (action : Action) : Decidable (Graceful world action) := by
  unfold Graceful
  split <;> infer_instance

theorem createAgentDraft_settles (store : Store) : store.Settles (createAgentDraft store).2 := by
  unfold createAgentDraft
  split
  · exact .refl store
  · exact .of_turns rfl (Nat.le_succ _)

/-- **Every step keeps track of the turns**; where the end of a generator counts, no turn
    may be left. -/
theorem World.Tracked.next {action : Action} (h : world.Tracked Over)
    (hlast : ∀ point, point.Last → Over point) (hbusy : ∀ point, Over point → point.busy = false)
    (hgraceful : Over .ended → Graceful world action)
    (hstep : ConversationStep settings world action world') : world'.Tracked Over := by
  cases hstep.stepped with
  | message =>
      refine ⟨h.ids, h.fresh, fun call hcall turnId point hphase => ?_, fun turn hturn hactive => ?_,
        fun call hcall turnId point hphase hover => ?_⟩
      · rcases List.mem_append.mp hcall with hold | hnew
        · exact h.rows call hold turnId point hphase
        · rw [List.mem_singleton.mp hnew] at hphase
          cases hphase
      · obtain ⟨call, hcall, hphase⟩ := h.calls turn hturn hactive
        exact ⟨call, List.mem_append_left _ hcall, hphase⟩
      · rcases List.mem_append.mp hcall with hold | hnew
        · exact h.inactive call hold turnId point hphase hover
        · rw [List.mem_singleton.mp hnew] at hphase
          cases hphase
  | refused hcall hchecked =>
      refine h.set hcall (fun _ _ hphase => nomatch hphase) (fun turnId point hphase => ?_)
        (fun _ _ hphase => nomatch hphase)
      rw [hchecked] at hphase
      cases hphase
  | started hcall _ hstart => exact h.started hbusy hcall hstart
  | @streamed index step call turnId point point' store' hcall hphase hstream =>
      have hmem := List.mem_of_getElem? hcall
      have hstepped := streamStep_stepped hstream
      have hsettles := stepped_settles hstepped
      refine World.Tracked.set (h.settles hsettles) hcall (fun _ _ hphase' => ?_)
        (fun _ _ hphase' => ?_) (fun _ _ hphase' hpoint => ?_)
      · cases hphase'
        exact hsettles.ids.symm ▸ h.rows call hmem turnId point hphase
      · rw [hphase] at hphase'
        cases hphase'
        exact ⟨point', rfl⟩
      · cases hphase'
        by_cases hleaves : Leaves step point
        · obtain ⟨rfl, rfl⟩ := leaves_stepped hleaves hstepped
          have hcallGraceful := hgraceful hpoint call hcall
          rw [hphase] at hcallGraceful
          exact hcallGraceful hleaves
        · rcases stepped_settled (fun hquiet => h.inactive call hmem turnId point hphase
            (hlast point hquiet)) hleaves hstepped with hrunning | hinactive
          · rw [hbusy point' hpoint] at hrunning
            cases hrunning
          · exact hinactive
  | cancelled hcancel =>
      obtain ⟨_, rfl⟩ := cancelTurn_eq_some hcancel
      exact h.settles (updateTurn_settles (fun _ => rfl) fun _ => TurnStatus.noConfusion)
  | feedback => exact h.of_eq rfl rfl
  | drafted => exact (h.settles (createAgentDraft_settles world.store)).of_eq rfl rfl
  | recorded _ hrecord =>
      obtain ⟨_, _, _, _, _, _, hturns, hnext, _⟩ := recordFeedback_eq_some hrecord
      exact (h.settles (.of_turns hturns (Nat.le_of_eq hnext.symm))).of_eq rfl rfl
  | submitted => exact h.settles (.of_turns rfl (Nat.le_refl _))
  | confirmed => exact h.of_eq rfl rfl
  | linked _ hlink =>
      have hlinked := linkTicket_eq_some hlink
      have hturns := congrArg Store.turns hlinked
      have hnext := congrArg Store.nextId hlinked
      exact (h.settles (.of_turns hturns (Nat.le_of_eq hnext.symm))).of_eq rfl rfl

/-! ## 4. Generators that have ended -/

theorem tracked_of_run {nextId : Uuid} {actions : List Action}
    (hr : Run (ConversationStep settings) (created nextId) actions world) :
    world.Tracked Point.Last :=
  hr.invariant (created_tracked nextId) fun _ _ _ h hstep =>
    h.next (fun _ hlast => hlast) (fun _ hlast => hlast.not_busy)
      (fun hended => by rcases hended with hended | hended <;> cases hended) hstep

theorem over_of_run {nextId : Uuid} {actions : List Action}
    (hr : Run (Guarded Graceful (ConversationStep settings)) (created nextId) actions world) :
    world.Tracked (·.busy = false) :=
  hr.invariant (created_tracked nextId) fun _ _ _ h hstep =>
    h.next (fun _ hlast => hlast.not_busy) (fun _ hover => hover) (fun _ => hstep.1) hstep.2

theorem startTurn_eq_activeTurn (h : startTurn store = .error .activeTurn) :
    ∃ turn ∈ store.turns, turn.turnStatus = .active := by
  unfold startTurn at h
  split at h
  · cases h
  · split at h
    · next hactive =>
        obtain ⟨turn, hturn, hstatus⟩ := List.any_eq_true.mp hactive
        exact ⟨turn, hturn, of_decide_eq_true hstatus⟩
    · cases h

/-- A turn is over. -/
def TurnStatus.Final (status : TurnStatus) : Prop :=
  status = .completed ∨ status = .failed ∨ status = .cancelled

theorem TurnStatus.final_of_ne {status : TurnStatus} (h : status ≠ .active) : status.Final := by
  cases status with
  | active => exact absurd rfl h
  | completed => exact .inl rfl
  | cancelled => exact .inr (.inr rfl)
  | failed => exact .inr (.inl rfl)

/-- **The last step of a generator** ends its turn, unless no handler runs for it and nobody
    else has ended it. -/
theorem ended_inactive_iff {index : Nat} {call : StreamCall} (htracked : world.Tracked Point.Last)
    (hstep : ConversationStep settings world (.stream index step) world')
    (hcall : world.streams[index]? = some call) (hphase : call.phase = .turn turnId point)
    (hended : world'.streams[index]? = some { call with phase := .turn turnId .ended }) :
    world'.store.turnActive turnId = false ↔ Graceful world (.stream index step) := by
  have hmem := List.mem_of_getElem? hcall
  cases hstep.stepped with
  | @streamed _ _ call' turnId' _ point' store' hcall' hphase' hstream =>
      obtain rfl := Option.some.inj (hcall'.symm.trans hcall)
      rw [hphase] at hphase'
      obtain ⟨rfl, rfl⟩ := StreamPhase.turn.inj hphase'
      have hstepped := streamStep_stepped hstream
      obtain ⟨position, _⟩ := List.getElem?_eq_some_iff.mp hcall
      rw [List.getElem?_set_self position] at hended
      have hpoint : point' = .ended :=
        (StreamPhase.turn.inj (congrArg StreamCall.phase (Option.some.inj hended))).2
      constructor
      · intro hinactive other hother
        obtain rfl := Option.some.inj (hcall.symm.trans hother)
        rw [hphase]
        intro hleaves
        obtain ⟨_, rfl⟩ := leaves_stepped hleaves hstepped
        exact hinactive
      · intro hgraceful
        by_cases hleaves : Leaves step point
        · obtain ⟨_, rfl⟩ := leaves_stepped hleaves hstepped
          have hcallGraceful := hgraceful _ hcall
          rw [hphase] at hcallGraceful
          exact hcallGraceful hleaves
        · rcases stepped_settled (htracked.inactive _ hmem turnId point hphase) hleaves hstepped with
            hrunning | hinactive
          · rw [hpoint] at hrunning
            cases hrunning
          · exact hinactive

/-- **No turn is left active**, in every run in which no generator is closed and none is left
    before its `try` while its turn is active: the turn of a generator that has ended is
    over, and a message is refused only for a turn whose generator still has to end it. A
    generator whose last step is another one leaves the turn active. -/
theorem ended_settled {nextId : Uuid} :
    (∀ (actions : List Action) (world : World),
      Run (Guarded Graceful (ConversationStep settings)) (created nextId) actions world →
      (∀ call ∈ world.streams, ∀ turnId, call.phase = .turn turnId .ended →
        turnId ∈ world.store.turnIds ∧
          ∀ turn ∈ world.store.turns, turn.turnId = turnId → turn.turnStatus.Final) ∧
      (startTurn world.store = .error .activeTurn →
        ∃ call ∈ world.streams, ∃ turnId point, call.phase = .turn turnId point ∧
          point.busy = true ∧ world.store.turnActive turnId = true)) ∧
    (∀ (actions : List Action) (world : World),
      Run (ConversationStep settings) (created nextId) actions world →
      ∀ (index : Nat) (step : StreamStep) (world' : World) (call : StreamCall) (turnId : Uuid)
        (point : Point),
        ConversationStep settings world (.stream index step) world' →
        world.streams[index]? = some call → call.phase = .turn turnId point →
        world'.streams[index]? = some { call with phase := .turn turnId .ended } →
        (world'.store.turnActive turnId = false ↔ Graceful world (.stream index step))) := by
  refine ⟨fun actions world hr => ⟨fun call hcall turnId hphase => ?_, fun hrefused => ?_⟩,
    fun actions world hr index step world' call turnId point hstep hcall hphase hended => ?_⟩
  · have htracked := over_of_run hr
    have hinactive := htracked.inactive call hcall turnId .ended hphase rfl
    refine ⟨htracked.rows call hcall turnId .ended hphase, fun turn hturn hid => ?_⟩
    exact TurnStatus.final_of_ne (turnActive_eq_false_iff.mp hinactive turn hturn hid)
  · have htracked := over_of_run hr
    obtain ⟨turn, hturn, hstatus⟩ := startTurn_eq_activeTurn hrefused
    obtain ⟨call, hcall, point, hphase⟩ := htracked.calls turn hturn hstatus
    have hactive : world.store.turnActive turn.turnId = true :=
      turnActive_iff.mpr ⟨turn, hturn, rfl, hstatus⟩
    refine ⟨call, hcall, turn.turnId, point, hphase, ?_, hactive⟩
    by_contra hbusy
    have hinactive := htracked.inactive call hcall _ point hphase (Bool.not_eq_true _ ▸ hbusy)
    rw [hactive] at hinactive
    cases hinactive
  · exact ended_inactive_iff (tracked_of_run hr) hstep hcall hphase hended

/-- A turn that its employee cancels while the answer is awaited, and whose generator is closed
    after that. -/
theorem ended_settled_sample :
    ∃ world : World, world.store.turns.map (·.turnStatus) = [.cancelled] ∧
      ∀ call ∈ world.streams, ∀ turnId, call.phase = .turn turnId .ended →
        turnId ∈ world.store.turnIds ∧
          ∀ turn ∈ world.store.turns, turn.turnId = turnId → turn.turnStatus.Final := by
  have hrun : ∃ world : World,
      [Action.message "my wallet was stolen", .start 0, .stream 0 .resume, .cancelTurn 1,
        .stream 0 .close].foldlM (fun world action => if Graceful world action then
          world.next escalating action else none) (created 1) = some world ∧
      world.store.turns.map (·.turnStatus) = [.cancelled] := by
    rw [← Option.map_eq_some_iff]
    decide +kernel
  obtain ⟨world, hrun, hturns⟩ := hrun
  exact ⟨world, hturns, (ended_settled.1 _ world (guarded_run_of_foldlM hrun)).1⟩

/-- The consumer closes the generator at its first event: the turn stays active, and the next
    message is refused. -/
theorem closed_turn_active :
    ¬ ∀ (settings : Settings) (nextId : Uuid) (actions : List Action) (world : World),
      Run (ConversationStep settings) (created nextId) actions world →
      ∀ call ∈ world.streams, ∀ turnId, call.phase = .turn turnId .ended →
        world.store.turnActive turnId = false := by
  intro hclaim
  have hrun : ∃ world : World,
      [Action.message "my wallet was stolen", .start 0, .stream 0 .resume, .stream 0 .close,
        .message "my wallet was stolen", .start 1].foldlM (World.next escalating) (created 1) =
          some world ∧
      (world.streams.map (·.phase), world.store.turnActive 1) =
        ([.turn 1 .ended, .refused], true) := by
    rw [← Option.map_eq_some_iff]
    decide +kernel
  obtain ⟨world, hrun, hworld⟩ := hrun
  obtain ⟨hphases, hactive⟩ := Prod.mk.inj hworld
  have hmem : StreamPhase.turn 1 .ended ∈ world.streams.map (·.phase) :=
    hphases ▸ List.mem_cons_self
  obtain ⟨call, hcall, hphase⟩ := List.mem_map.mp hmem
  have hinactive := hclaim escalating 1 _ world (run_of_foldlM hrun) call hcall 1 hphase
  rw [hactive] at hinactive
  cases hinactive

end Helpdesk.EmployeeAgent
