/-
  File:      Helpdesk/Sla/Runs.lean
  Subject:   The engine as a transition system on the store.

  A step is a transaction of the worker that committed (`processed`, `scanned`),
  one that raised and was rolled back (`failed`), or a write of another service
  to the tickets and the configuration (`outside`): published calendar versions
  are protected by triggers, so what the engine finds of them stays.

  * `rowAction`: what an event asks of one row, and `process_ok`, `start_ok`,
    `evaluateDue_ok`: a committed transaction, record by record;
  * `StepWrite`: the labels a step may write to a record that was there before;
  * `records_invariant`: the rule by which every claim about rows is proved.
-/
import Helpdesk.Sla.Operations

namespace Helpdesk.Sla

open Helpdesk.Python

variable {s s' : Store} {r r' : SlaRecord} {event : SlaInputEvent} {ticket : TicketFacts}

/-! ## 1. What an event asks of a row -/

inductive RowAction where
  | complete (at_ : Instant)
  | reopen
  | pause
  | resume
  | recalculate
  | nothing
  deriving DecidableEq, Repr

def TransitionAction.rowAction : TransitionAction → RowAction
  | complete at_ _ => .complete at_
  | reopen => .reopen
  | pause _ => .pause
  | resume _ => .resume
  | nothing => .nothing

/-- What an event asks of one row of its ticket. -/
def rowAction (store : Store) (ticket : TicketFacts) (event : SlaInputEvent) (sla : TicketSla) :
    Except Failure RowAction :=
  match event.eventType with
  | .agentPublicResponseAdded =>
      .ok (if sla.definition.metric = .firstResponse then .complete event.occurredAt else .nothing)
  | .ticketWorkflowTransitioned => do
      let fromStatus ← requiredString event.payload "from_status"
      let toStatus ← requiredString event.payload "to_status"
      match store.statusCategory ticket.ticketId fromStatus,
          store.statusCategory ticket.ticketId toStatus with
      | some fromCategory, some toCategory => do
          return (← transitionAction ticket event fromCategory toCategory toStatus sla).rowAction
      | _, _ => throw (.configuration "Workflow event references an unknown status.")
  | .ticketPriorityChanged => .ok .recalculate
  | _ => .ok .nothing

/-- The time an action stamps its writes with. -/
def RowAction.stamp (event : SlaInputEvent) : RowAction → Instant
  | complete at_ => at_
  | _ => event.occurredAt

/-- The condition under which an action does nothing to its row. -/
def RowIdle (config : SlaConfig) (event : SlaInputEvent) (r : SlaRecord) : RowAction → Prop
  | .complete at_ => CompleteIdle config r at_ event.outboxEventId
  | .reopen => ReopenIdle r event.outboxEventId
  | .pause => PauseIdle r event.outboxEventId
  | .resume => ResumeIdle r event.outboxEventId
  | .recalculate => RecalculateIdle r event.outboxEventId
  | .nothing => True

/-- The labels of an action on a record. -/
def RowWrite (config : SlaConfig) (ticket : TicketFacts) (event : SlaInputEvent) (r : SlaRecord)
    (action : RowAction) (w : Write) : Prop :=
  w.at_ = action.stamp event ∧
    match action with
    | .complete _ => w.kind = .breached ∨ w.kind = .stopped
    | .reopen => w.kind = .breached ∨ w.kind = .reopened
    | .pause => w.kind = .paused ∧ r.row.state = .running ∧
        ∃ current, calculated config r.row event.occurredAt = .ok current ∧
          w.sla.remainingWorkingSeconds = current.remainingWorkingSeconds
    | .resume => w.kind = .resumed
    | .recalculate => w.kind = .breached ∨ w.kind = .recalculated ∧ w.sla.state = r.row.state ∧
        (r.row.state ≠ .running → w.sla.elapsedWorkingSeconds = r.row.elapsedWorkingSeconds) ∧
        selectGoal config r.row.definition ticket event.occurredAt = .ok w.sla.goal
    | .nothing => False

/-- What a committed event makes of a record that was there before. -/
def RowOutcome (store : Store) (ticket : TicketFacts) (event : SlaInputEvent)
    (r r' : SlaRecord) : Prop :=
  (Store.ofTicket ticket.tenantId ticket.ticketId r.row = true ∧
    ∃ action, rowAction store ticket event r.row = .ok action ∧
      Does store.config (RowIdle store.config event r action)
        (RowWrite store.config ticket event r action) r r') ∨
  (Store.ofTicket ticket.tenantId ticket.ticketId r.row = false ∧ r' = r)

/-! ## 2. Committed transactions, record by record -/

/-- **A loop over rows** handles every record on its own. -/
theorem forRows_ok {selected : TicketSla → Bool} {op : TicketSla → RowTransaction Unit} {u : Unit}
    (h : (forRows selected op).run s = .ok (u, s')) :
    s' = { s with records := s'.records } ∧ List.Forall₂ (fun r r' =>
      (selected r.row = true ∧ ∃ u, (op r.row).run r = .ok (u, r')) ∨
        (selected r.row = false ∧ r' = r)) s.records s'.records := by
  unfold forRows at h
  rw [Transaction.get_bind, Transaction.lift_bind_eq_ok] at h
  obtain ⟨records, hrecords, h⟩ := h
  obtain rfl := Transaction.set_eq_ok.mp h
  refine ⟨rfl, (mapM_pointwise hrecords).imp ?_⟩
  intro r r' hr
  unfold onSelected at hr
  split at hr
  · rename_i hselected
    unfold onRow at hr
    rw [bind_eq_ok] at hr
    obtain ⟨⟨u, r₁⟩, hop, hr⟩ := hr
    rw [pure_eq_ok] at hr
    subst hr
    exact Or.inl ⟨hselected, u, hop⟩
  · rename_i hselected
    exact Or.inr ⟨Bool.eq_false_iff.mpr hselected, (Except.ok.inj hr).symm⟩

/-- One row of `_transition`. -/
theorem transitionRow_ok {config : SlaConfig} {fromCategory toCategory toStatus : String}
    {u : Unit} (hkept : BreachKept r)
    (h : (transitionRow config ticket event fromCategory toCategory toStatus r.row).run r =
      .ok (u, r')) :
    ∃ action, transitionAction ticket event fromCategory toCategory toStatus r.row = .ok action ∧
      Does config (RowIdle config event r action.rowAction)
        (RowWrite config ticket event r action.rowAction) r r' := by
  unfold transitionRow at h
  rw [Transaction.lift_bind_eq_ok] at h
  obtain ⟨action, haction, h⟩ := h
  refine ⟨action, haction, ?_⟩
  cases action with
  | complete at_ reason =>
      rw [Transaction.bind_eq_ok] at h
      obtain ⟨_, r₁, hop, h⟩ := h
      obtain ⟨_, rfl⟩ := Transaction.pure_eq_ok.mp h
      exact (complete_ok hkept hop).mono fun w hw => ⟨hw.2, hw.1⟩
  | reopen =>
      rw [Transaction.bind_eq_ok] at h
      obtain ⟨_, r₁, hop, h⟩ := h
      obtain ⟨_, rfl⟩ := Transaction.pure_eq_ok.mp h
      exact (reopen_ok hkept hop).mono fun w hw => ⟨hw.2, hw.1⟩
  | pause reason =>
      rw [Transaction.bind_eq_ok] at h
      obtain ⟨_, r₁, hop, h⟩ := h
      obtain ⟨_, rfl⟩ := Transaction.pure_eq_ok.mp h
      exact (pause_ok hop).mono fun w hw => ⟨hw.2.1, hw.1, hw.2.2⟩
  | resume reason =>
      rw [Transaction.bind_eq_ok] at h
      obtain ⟨_, r₁, hop, h⟩ := h
      obtain ⟨_, rfl⟩ := Transaction.pure_eq_ok.mp h
      exact (resume_ok hop).mono fun w hw => ⟨hw.2, hw.1⟩
  | nothing =>
      obtain ⟨_, rfl⟩ := Transaction.pure_eq_ok.mp h
      exact .nothing trivial

/-- A committed event has a supported type and a ticket. -/
theorem process_dispatch {u : Unit} (h : (process event).run s = .ok (u, s')) :
    event.eventType.supported = true ∧ ∃ ticket,
      s.ticket event.tenantId event.ticketId = some ticket ∧
        (dispatch ticket event).run s = .ok (u, s') := by
  unfold process at h
  rw [Transaction.guard_eq_ok, Transaction.get_bind] at h
  obtain ⟨hsupported, h⟩ := h
  refine ⟨not_not.mp hsupported, ?_⟩
  split at h
  · exact (Transaction.throw_ne_ok.mp h).elim
  · rename_i ticket hticket
    exact ⟨ticket, hticket, h⟩

/-- The ticket a lookup finds is the one that was asked for. -/
theorem ticket_ids {tenantId ticketId : Uuid} (h : s.ticket tenantId ticketId = some ticket) :
    ticket.tenantId = tenantId ∧ ticket.ticketId = ticketId := by
  unfold Store.ticket at h
  simp only [Option.bind_eq_bind, Option.bind_eq_some_iff, Option.pure_def,
    Option.some.injEq] at h
  obtain ⟨row, hrow, status, _, rfl⟩ := h
  have hids := List.find?_some hrow
  simp only [Bool.and_eq_true, decide_eq_true_eq] at hids
  exact hids

/-- A loop over the rows of the ticket, each of which does what its action asks. -/
theorem rowOutcome_of_rows {op : TicketSla → RowTransaction Unit} {rs : List SlaRecord}
    (hkept : ∀ r ∈ s.records, BreachKept r)
    (hop : ∀ {r r' : SlaRecord} {u : Unit}, BreachKept r → (op r.row).run r = .ok (u, r') →
      ∃ action, rowAction s ticket event r.row = .ok action ∧
        Does s.config (RowIdle s.config event r action)
          (RowWrite s.config ticket event r action) r r')
    (hrows : List.Forall₂ (fun r r' =>
      (Store.ofTicket ticket.tenantId ticket.ticketId r.row = true ∧
        ∃ u, (op r.row).run r = .ok (u, r')) ∨
      (Store.ofTicket ticket.tenantId ticket.ticketId r.row = false ∧ r' = r)) s.records rs) :
    List.Forall₂ (RowOutcome s ticket event) s.records rs := by
  refine ((List.forall₂_and_left _ _).mpr ⟨hkept, hrows⟩).imp ?_
  intro r r' hr
  rcases hr.2 with ⟨hof, u, hrun⟩ | hother
  · exact Or.inl ⟨hof, hop hr.1 hrun⟩
  · exact Or.inr hother

/-- **A committed event that is not a start**: every record has the outcome of its
    own action. -/
theorem dispatch_ok {u : Unit} (hkept : ∀ r ∈ s.records, BreachKept r)
    (hstart : event.eventType ≠ .startSla) (h : (dispatch ticket event).run s = .ok (u, s')) :
    s'.config = s.config ∧ s'.nextSlaId = s.nextSlaId ∧
      List.Forall₂ (RowOutcome s ticket event) s.records s'.records := by
  have hnothing : rowAction s ticket event = (fun _ => .ok .nothing) →
      List.Forall₂ (RowOutcome s ticket event) s.records s.records := by
    intro haction
    refine List.forall₂_same.mpr fun r _ => ?_
    cases hof : Store.ofTicket ticket.tenantId ticket.ticketId r.row with
    | false => exact Or.inr ⟨hof, rfl⟩
    | true => exact Or.inl ⟨hof, .nothing, by rw [haction], .nothing trivial⟩
  unfold dispatch at h
  cases htype : event.eventType with
  | startSla => exact absurd htype hstart
  | agentPublicResponseAdded =>
      rw [htype] at h
      dsimp only at h
      rw [Transaction.bind_eq_ok] at h
      obtain ⟨_, s₁, hmark, h⟩ := h
      obtain rfl := Transaction.modify_eq_ok.mp hmark
      unfold completeMetric at h
      rw [Transaction.get_bind] at h
      obtain ⟨hs', hrows⟩ := forRows_ok h
      rw [hs']
      refine ⟨rfl, rfl, rowOutcome_of_rows hkept (fun {r r' u} hkept hrun => ?_) hrows⟩
      unfold rowAction
      rw [htype]
      unfold metricRow at hrun
      split at hrun
      · rename_i hmetric
        rw [Transaction.bind_eq_ok] at hrun
        obtain ⟨_, r₁, hcomplete, hrun⟩ := hrun
        obtain ⟨_, rfl⟩ := Transaction.pure_eq_ok.mp hrun
        rw [if_pos hmetric]
        exact ⟨_, rfl, (complete_ok hkept hcomplete).mono fun w hw => ⟨hw.2, hw.1⟩⟩
      · rename_i hmetric
        obtain ⟨_, rfl⟩ := Transaction.pure_eq_ok.mp hrun
        rw [if_neg hmetric]
        exact ⟨_, rfl, .nothing trivial⟩
  | customerCommentAdded =>
      rw [htype] at h
      obtain ⟨_, rfl⟩ := Transaction.pure_eq_ok.mp h
      refine ⟨rfl, rfl, hnothing ?_⟩
      funext sla
      unfold rowAction
      rw [htype]
  | ticketWorkflowTransitioned =>
      rw [htype] at h
      unfold transition at h
      dsimp only at h
      rw [Transaction.get_bind, Transaction.lift_bind_eq_ok] at h
      obtain ⟨fromStatus, hfrom, h⟩ := h
      rw [Transaction.lift_bind_eq_ok] at h
      obtain ⟨toStatus, hto, h⟩ := h
      split at h
      · rename_i fromCategory toCategory hfromCategory htoCategory
        obtain ⟨hs', hrows⟩ := forRows_ok h
        rw [hs']
        refine ⟨rfl, rfl, rowOutcome_of_rows hkept (fun {r r' u} hkept hrun => ?_) hrows⟩
        obtain ⟨action, haction, hdoes⟩ := transitionRow_ok hkept hrun
        refine ⟨action.rowAction, ?_, hdoes⟩
        unfold rowAction
        rw [htype]
        simp only [bind_eq_ok]
        refine ⟨fromStatus, hfrom, toStatus, hto, ?_⟩
        rw [hfromCategory, htoCategory]
        simp only [bind_eq_ok, pure_eq_ok]
        exact ⟨action, haction, rfl⟩
      · exact (Transaction.throw_ne_ok.mp h).elim
  | ticketPriorityChanged =>
      rw [htype] at h
      unfold priorityChanged at h
      dsimp only at h
      rw [Transaction.get_bind] at h
      obtain ⟨hs', hrows⟩ := forRows_ok h
      rw [hs']
      refine ⟨rfl, rfl, rowOutcome_of_rows hkept (fun {r r' u} hkept hrun => ?_) hrows⟩
      unfold rowAction
      rw [htype]
      exact ⟨.recalculate, rfl, (recalculate_ok hkept hrun).mono fun w hw => ⟨hw.2, hw.1⟩⟩
  | other eventType =>
      rw [htype] at h
      obtain ⟨_, rfl⟩ := Transaction.pure_eq_ok.mp h
      refine ⟨rfl, rfl, hnothing ?_⟩
      funext sla
      unfold rowAction
      rw [htype]

/-- A record a start creates: the row as inserted, and what `_start` does to it. -/
inductive NewRecord (config : SlaConfig) (ticket : TicketFacts) : SlaRecord → Prop where
  | created {id : Uuid} {definition : SlaDefinitionVersion} {goal : SlaGoalVersion}
      {calendar : BusinessCalendar} {targetAt stamp : Instant} {warning : Option Instant}
      {r : SlaRecord} (hgoal : selectGoal config definition ticket ticket.createdAt = .ok goal)
      (hcalendar : goalCalendar config goal = .ok calendar)
      (htarget : calendar.addBusinessSeconds ticket.createdAt goal.targetSeconds = .ok targetAt)
      (hwarning : warningAt calendar ticket.createdAt goal = .ok warning)
      (hwrites : Writes config (StartWrite ticket stamp)
        (.created
          (SlaRecord.createdSla id ticket definition goal ticket.createdAt targetAt warning)) r) :
      NewRecord config ticket r

theorem created_kept (row : TicketSla) : BreachKept (.created row) := by
  intro hkey
  cases hkey

/-- **One definition of a start**: its row exists, or one is created. -/
theorem startDefinition_ok {definition : SlaDefinitionVersion} {u : Unit}
    (h : (startDefinition ticket event definition).run s = .ok (u, s')) :
    (s.hasSla ticket.ticketId definition.slaDefinitionId = true ∧ s' = s) ∨
      (s.hasSla ticket.ticketId definition.slaDefinitionId = false ∧
        ∃ r, NewRecord s.config ticket r ∧
          s' = { s with records := s.records ++ [r], nextSlaId := s.nextSlaId + 1 }) := by
  unfold startDefinition at h
  rw [Transaction.get_bind] at h
  dsimp only at h
  rw [Transaction.lift_bind_eq_ok] at h
  obtain ⟨goal, hgoal, h⟩ := h
  rw [Transaction.lift_bind_eq_ok] at h
  obtain ⟨calendar, hcalendar, h⟩ := h
  rw [Transaction.lift_bind_eq_ok] at h
  obtain ⟨targetAt, htarget, h⟩ := h
  rw [Transaction.lift_bind_eq_ok] at h
  obtain ⟨warning, hwarning, h⟩ := h
  split at h
  · rename_i hexists
    obtain ⟨_, rfl⟩ := Transaction.pure_eq_ok.mp h
    exact Or.inl ⟨hexists, rfl⟩
  · rename_i hnew
    rw [Transaction.lift_bind_eq_ok] at h
    obtain ⟨r, hr, h⟩ := h
    obtain rfl := Transaction.set_eq_ok.mp h
    refine Or.inr ⟨Bool.eq_false_iff.mpr hnew, r, ?_, rfl⟩
    unfold onRow at hr
    rw [bind_eq_ok] at hr
    obtain ⟨⟨_, r₁⟩, hrun, hr⟩ := hr
    rw [pure_eq_ok] at hr
    subst hr
    obtain ⟨stamp, hwrites⟩ := startRow_ok (created_kept _) (by exact goal.target_pos) rfl hrun
    exact .created hgoal hcalendar htarget hwarning hwrites

/-- The definitions in effect for a ticket. -/
def definitionsOf (store : Store) (ticket : TicketFacts) : List SlaDefinitionVersion :=
  store.config.definitions ticket.tenantId ticket.projectId ticket.createdAt

/-- The loop of `_start` only adds records, one for each definition without one. -/
theorem startLoop_ok {u : Unit} : ∀ {definitions : List SlaDefinitionVersion} {s : Store},
    (definitions.forM (startDefinition ticket event)).run s = .ok (u, s') →
    s'.config = s.config ∧ s'.tickets = s.tickets ∧ ∃ new, s'.records = s.records ++ new ∧
      (new = [] ↔ ∀ d ∈ definitions, s.hasSla ticket.ticketId d.slaDefinitionId = true) ∧
      ∀ r ∈ new, NewRecord s.config ticket r
  | [], s, h => by
      obtain ⟨_, rfl⟩ := Transaction.pure_eq_ok.mp h
      refine ⟨rfl, rfl, [], (List.append_nil _).symm, ⟨fun _ d hd => ?_, fun _ => rfl⟩, ?_⟩
      · exact absurd hd List.not_mem_nil
      · exact fun r hr => absurd hr List.not_mem_nil
  | d :: ds, s, h => by
      rw [List.forM_eq_forM, List.forM_cons, Transaction.bind_eq_ok] at h
      obtain ⟨_, s₁, hd, h⟩ := h
      obtain ⟨hconfig, htickets, new, hrecords, hnil, hnew⟩ := startLoop_ok h
      rcases startDefinition_ok hd with ⟨hexists, rfl⟩ | ⟨hfresh, r, hr, rfl⟩
      · refine ⟨hconfig, htickets, new, hrecords, hnil.trans ?_, hnew⟩
        rw [List.forall_mem_cons]
        exact ⟨fun hall => ⟨hexists, hall⟩, fun hall => hall.2⟩
      · refine ⟨hconfig, htickets, r :: new, ?_, ⟨fun hcons => ?_, fun hall => ?_⟩, ?_⟩
        · rw [hrecords, List.append_assoc, List.singleton_append]
        · exact absurd hcons (List.cons_ne_nil _ _)
        · have := hall d List.mem_cons_self
          rw [hfresh] at this
          cases this
        · intro r' hr'
          rcases List.mem_cons.mp hr' with rfl | hr'
          · exact hr
          · exact hnew r' hr'

/-- **A committed start.** -/
theorem start_ok {u : Unit} (h : (start ticket event).run s = .ok (u, s')) :
    s'.config = s.config ∧ s'.tickets = s.tickets ∧ ∃ new, s'.records = s.records ++ new ∧
      (new = [] ↔ ∀ d ∈ definitionsOf s ticket,
        s.hasSla ticket.ticketId d.slaDefinitionId = true) ∧
      ∀ r ∈ new, NewRecord s.config ticket r := by
  unfold start at h
  rw [Transaction.get_bind] at h
  dsimp only at h
  rw [Transaction.guard_eq_ok] at h
  exact startLoop_ok h.2

theorem isDue_running {tenantId : Uuid} {dueAt : Instant} {sla : TicketSla}
    (h : Store.isDue tenantId dueAt sla = true) : sla.state = .running := by
  unfold Store.isDue at h
  simp only [Bool.and_eq_true, decide_eq_true_eq] at h
  exact h.1.2

/-- **A committed scan.** -/
theorem evaluateDue_ok {tenantId : Uuid} {dueAt : Instant} {limit n : Nat}
    (hkept : ∀ r ∈ s.records, BreachKept r)
    (h : (evaluateDue tenantId dueAt limit).run s = .ok (n, s')) :
    s' = { s with records := s'.records } ∧
      List.Forall₂ (fun r r' => Writes s.config
        (fun w => scanned s tenantId dueAt limit r.row = true ∧ DueWrite dueAt w) r r')
        s.records s'.records := by
  unfold evaluateDue at h
  rw [Transaction.get_bind] at h
  rw [Transaction.bind_eq_ok] at h
  obtain ⟨_, s₁, hrows, h⟩ := h
  obtain ⟨_, rfl⟩ := Transaction.pure_eq_ok.mp h
  obtain ⟨hs₁, hrows⟩ := forRows_ok hrows
  refine ⟨hs₁, ((List.forall₂_and_left _ _).mpr ⟨hkept, hrows⟩).imp ?_⟩
  intro r r' hr
  rcases hr.2 with ⟨hdue, u, hrun⟩ | ⟨_, rfl⟩
  · have hrunning := isDue_running (Bool.and_eq_true_iff.mp hdue).1
    exact (dueRow_ok hr.1 hrunning hrun).mono fun w hw => ⟨hdue, hw⟩
  · exact .nothing

/-! ## 3. The transition system -/

/-- What happens to the store: an input event is processed, a tenant is scanned,
    another service writes tickets and configuration. -/
inductive SlaLabel where
  | input (event : SlaInputEvent)
  | due (tenantId : Uuid) (dueAt : Instant) (limit : Nat)
  | outside (tickets : List TicketRow) (config : SlaConfig)

/-- A transaction that raises is rolled back. -/
def Store.commit {α : Type} (store : Store) : Except Failure (α × Store) → Store
  | .ok (_, store') => store'
  | .error _ => store

theorem Store.commit_cases {α : Type} (s : Store) (result : Except Failure (α × Store)) :
    s.commit result = s ∨ ∃ a s', result = .ok (a, s') ∧ s.commit result = s' := by
  cases result with
  | error failure => exact Or.inl rfl
  | ok pair => exact Or.inr ⟨pair.1, pair.2, rfl, rfl⟩

def Store.next (store : Store) : SlaLabel → Store
  | .input event => store.commit ((process event).run store)
  | .due tenantId dueAt limit => store.commit ((evaluateDue tenantId dueAt limit).run store)
  | .outside tickets config => { store with tickets := tickets, config := config }

/-- What another configuration keeps: the triggers protect published and retired
    calendar versions, and the time zone database is the same. -/
def SlaConfig.Keeps (config config' : SlaConfig) : Prop :=
  config'.zones = config.zones ∧
    ∀ id version, config.calendar id = some version → config'.calendar id = some version

theorem SlaConfig.Keeps.refl (config : SlaConfig) : config.Keeps config :=
  ⟨rfl, fun _ _ h => h⟩

theorem goalCalendar_keeps {config config' : SlaConfig} {goal : SlaGoalVersion}
    {calendar : BusinessCalendar} (hkeeps : config.Keeps config') (h : goalCalendar config goal = .ok calendar) :
    goalCalendar config' goal = .ok calendar := by
  unfold goalCalendar at h ⊢
  cases hversion : config.calendar goal.businessCalendarVersionId with
  | none =>
      rw [hversion] at h
      cases h
  | some version =>
      rw [hversion] at h
      rw [hkeeps.2 _ _ hversion, hkeeps.1]
      exact h

inductive SlaStep (s : Store) : SlaLabel → Store → Prop where
  | input (event : SlaInputEvent) : SlaStep s (.input event) (s.next (.input event))
  | due (tenantId : Uuid) (dueAt : Instant) (limit : Nat) :
      SlaStep s (.due tenantId dueAt limit) (s.next (.due tenantId dueAt limit))
  | outside (tickets : List TicketRow) {config : SlaConfig} (h : s.config.Keeps config) :
      SlaStep s (.outside tickets config) (s.next (.outside tickets config))

/-- The labels a step may write to a record that is there before it. -/
def StepWrite (s : Store) (l : SlaLabel) (r : SlaRecord) (w : Write) : Prop :=
  match l with
  | .input event => ∃ ticket action, s.ticket event.tenantId event.ticketId = some ticket ∧
      Store.ofTicket ticket.tenantId ticket.ticketId r.row = true ∧
      rowAction s ticket event r.row = .ok action ∧ ¬ RowIdle s.config event r action ∧
      RowWrite s.config ticket event r action w
  | .due tenantId dueAt limit => scanned s tenantId dueAt limit r.row = true ∧ DueWrite dueAt w
  | .outside _ _ => False

/-- The records a step creates. -/
def StepCreates (s : Store) (l : SlaLabel) (r : SlaRecord) : Prop :=
  ∃ event ticket, l = .input event ∧ event.eventType = .startSla ∧
    s.ticket event.tenantId event.ticketId = some ticket ∧ NewRecord s.config ticket r

/-- **One step**: the configuration keeps its calendars, every record is written as
    its label allows, and what is added was created by a start. -/
theorem step_records {l : SlaLabel} (hkept : ∀ r ∈ s.records, BreachKept r)
    (hs : SlaStep s l s') :
    s.config.Keeps s'.config ∧ ∃ old new, s'.records = old ++ new ∧
      List.Forall₂ (fun r r' => Writes s.config (StepWrite s l r) r r') s.records old ∧
      ∀ r ∈ new, StepCreates s l r := by
  have hsame : ∀ {l}, List.Forall₂ (fun r r' => Writes s.config (StepWrite s l r) r r')
      s.records s.records := List.forall₂_same.mpr fun _ _ => .nothing
  have hnone : ∀ {l}, ∀ r ∈ ([] : List SlaRecord), StepCreates s l r :=
    fun _ hr => absurd hr List.not_mem_nil
  have hstill : ∀ {l s'}, s' = s → s.config.Keeps s'.config ∧ ∃ old new,
      s'.records = old ++ new ∧
      List.Forall₂ (fun r r' => Writes s.config (StepWrite s l r) r r') s.records old ∧
      ∀ r ∈ new, StepCreates s l r := by
    rintro l s' rfl
    exact ⟨.refl _, s'.records, [], (List.append_nil _).symm, hsame, hnone⟩
  cases hs with
  | input event =>
      rcases s.commit_cases ((process event).run s) with hnext | ⟨_, s', hprocess, hnext⟩
      · exact hstill hnext
      · rw [show s.next (.input event) = s' from hnext]
        obtain ⟨_, ticket, hticket, hdispatch⟩ := process_dispatch hprocess
        by_cases hstart : event.eventType = .startSla
        · unfold dispatch at hdispatch
          rw [hstart] at hdispatch
          obtain ⟨hconfig, _, new, hrecords, _, hnew⟩ := start_ok hdispatch
          refine ⟨hconfig ▸ .refl _, s.records, new, hrecords, hsame, fun r hr => ?_⟩
          exact ⟨event, ticket, rfl, hstart, hticket, hnew r hr⟩
        · obtain ⟨hconfig, _, hrows⟩ := dispatch_ok hkept hstart hdispatch
          refine ⟨hconfig ▸ .refl _, s'.records, [], (List.append_nil _).symm, ?_, hnone⟩
          refine hrows.imp fun r r' hr => ?_
          rcases hr with ⟨hof, action, haction, hdoes⟩ | ⟨_, rfl⟩
          · exact hdoes.writes.mono fun w hw => ⟨ticket, action, hticket, hof, haction, hw⟩
          · exact .nothing
  | due tenantId dueAt limit =>
      rcases s.commit_cases ((evaluateDue tenantId dueAt limit).run s) with
        hnext | ⟨n, s', hscan, hnext⟩
      · exact hstill hnext
      · rw [show s.next (.due tenantId dueAt limit) = s' from hnext]
        obtain ⟨hs', hrows⟩ := evaluateDue_ok hkept hscan
        have hconfig : s'.config = s.config := by rw [hs']
        exact ⟨hconfig ▸ .refl _, s'.records, [], (List.append_nil _).symm, hrows, hnone⟩
  | outside tickets h => exact ⟨h, s.records, [], (List.append_nil _).symm, hsame, hnone⟩

/-- **The invariant rule for records.** `I` holds of what a start creates, and of what
    the labels of a step make of a record, under the condition `G` on the steps. -/
theorem records_invariant {G : Store → SlaLabel → Prop} {I : SlaConfig → SlaRecord → Prop}
    {s₀ : Store} {ls : List SlaLabel} (hrun : Run (Guarded G SlaStep) s₀ ls s)
    (h0 : s₀.records = [])
    (hkeeps : ∀ {config config' : SlaConfig} {r : SlaRecord}, config.Keeps config' →
      I config r → I config' r)
    (hcreates : ∀ {s : Store} {l : SlaLabel} {r : SlaRecord}, G s l → StepCreates s l r →
      I s.config r)
    (hwrites : ∀ {s : Store} {l : SlaLabel} {r r' : SlaRecord}, G s l → r ∈ s.records →
      I s.config r → Writes s.config (StepWrite s l r) r r' → I s.config r') :
    ∀ r ∈ s.records, BreachKept r ∧ I s.config r := by
  refine hrun.invariant (I := fun s => ∀ r ∈ s.records, BreachKept r ∧ I s.config r) ?_ ?_
  · intro r hr
    rw [h0] at hr
    exact absurd hr List.not_mem_nil
  · intro s l s' hI hs r' hr'
    obtain ⟨hkeep, old, new, hrecords, hold, hnew⟩ := step_records (fun r hr => (hI r hr).1) hs.2
    rw [hrecords] at hr'
    rcases List.mem_append.mp hr' with hr' | hr'
    · obtain ⟨r, hr, hw⟩ := mem_of_forall₂ hold hr'
      obtain ⟨hkept, hIr⟩ := hI r hr
      refine ⟨hw.invariant hkept fun _ _ _ hk hc _ => hk.change hc, ?_⟩
      exact hkeeps hkeep (hwrites hs.1 hr hIr hw)
    · have hcreated := hnew r' hr'
      refine ⟨?_, hkeeps hkeep (hcreates hs.1 hcreated)⟩
      obtain ⟨_, _, _, _, _, _, _, _, _, hw⟩ := hcreated
      exact hw.invariant (created_kept _) fun _ _ _ hk hc _ => hk.change hc

theorem records_kept {s₀ : Store} {ls : List SlaLabel} (hrun : Run SlaStep s₀ ls s)
    (h0 : s₀.records = []) : ∀ r ∈ s.records, BreachKept r := by
  have hguarded : Run (Guarded (fun _ _ => True) SlaStep) s₀ ls s :=
    hrun.mono fun _ _ _ hs => ⟨trivial, hs⟩
  intro r hr
  exact (records_invariant (I := fun _ _ => True) hguarded h0 (fun _ _ => trivial)
    (fun _ _ => trivial) (fun _ _ _ _ => trivial) r hr).1

/-! ## 4. A sample tenant -/

section Sample

/-- One zone, one resolution target of a minute that pauses while the ticket waits,
    a calendar that is always open. -/
def sampleConfig : SlaConfig where
  zones name := if name = "UTC" then some ZoneInfo.utc else none
  statuses :=
    [⟨1, 100, "OPEN", "ACTIVE"⟩, ⟨2, 100, "WAITING", "WAITING"⟩, ⟨3, 100, "DONE", "DONE"⟩,
     ⟨4, 100, "WORKING", "ACTIVE"⟩]
  definitionVersions :=
    [⟨5, 6, true, 20, 21, 1, .published, none, none, "TIME_TO_RESOLUTION",
      .list [.dict [("status_code", .str "WAITING")]]⟩]
  goalVersions :=
    [⟨true, 30, 31, 21, 7, 1, .published, none, none, .dict [], 1, none, 100, by decide, by simp⟩]
  calendarVersions := [⟨.published, ⟨7, 70, "UTC", true, [], []⟩⟩]

def sampleStore : Store where
  tickets := [⟨9, 5, 6, none, "INCIDENT", "HIGH", 1, 100, 0, none, none⟩]
  config := sampleConfig
  records := []
  nextSlaId := 1000

/-- An event of the sample ticket, `at_` seconds after its creation. -/
def sampleEvent (id : Uuid) (eventType : SlaInputEventType) (at_ : Int) : SlaInputEvent :=
  ⟨id, 5, 9, eventType, [], at_ * second⟩

def sampleTransition (id : Uuid) (fromStatus toStatus : String) (at_ : Int) : SlaInputEvent :=
  ⟨id, 5, 9, .ticketWorkflowTransitioned,
    [("from_status", .str fromStatus), ("to_status", .str toStatus)], at_ * second⟩

/-- Labels of the engine only are always admitted. -/
theorem sampleRun {s₀ : Store} {ls : List SlaLabel}
    (h : ∀ l ∈ ls, ∀ tickets config, l ≠ .outside tickets config) :
    Run SlaStep s₀ ls (execute Store.next s₀ ls) := by
  refine run_of_steps (fun l hl s => ?_) s₀
  cases l with
  | input event => exact .input event
  | due tenantId dueAt limit => exact .due tenantId dueAt limit
  | outside tickets config => exact absurd rfl (h _ hl tickets config)

end Sample

end Helpdesk.Sla
