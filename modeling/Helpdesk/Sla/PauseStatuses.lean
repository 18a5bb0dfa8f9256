/-
  File:      Helpdesk/Sla/PauseStatuses.lean
  Subject:   Which rows a workflow transition leaves paused.

  A row that is neither ended nor cancelled should be paused exactly while its ticket is
  in one of its pause statuses. `_transition` asks for the pause statuses only where the
  ticket neither leaves nor enters the category DONE, and an event that was delivered
  before changes nothing.

  * `pause_state`, `resume_state`, `complete_state`, `reopen_state`: the state each
    operation leaves;
  * `FollowsTicket`: the state of a row follows the status of its ticket;
  * `KeepsUp`: when a transition makes it so;
  * **`follows_iff`**: exactly then;
  * `reopened_waiting_runs`: a ticket that is reopened into a pause status.
-/
import Helpdesk.Sla.Replay

namespace Helpdesk.Sla

open Helpdesk.Python

variable {config : SlaConfig} {r r' : SlaRecord} {event : SlaInputEvent} {ticket : TicketFacts}
  {at_ : Instant} {x : TicketSla} {reason fromCategory toCategory toStatus : String}

/-! ## 1. The state an operation leaves -/

theorem pause_state (h : (pause config r.row at_ event reason).run r = .ok (x, r')) :
    (PauseIdle r event.outboxEventId ∧ r' = r) ∨
      (¬ PauseIdle r event.outboxEventId ∧ r'.row.state = .paused) := by
  unfold pause at h
  split at h
  · next hstate =>
      obtain ⟨rfl, rfl⟩ := Transaction.pure_eq_ok.mp h
      exact .inl ⟨.inl hstate, rfl⟩
  · next hstate =>
      rw [Transaction.lift_bind_eq_ok] at h
      obtain ⟨current, hcurrent, h⟩ := h
      rcases recordGuard_ok h with ⟨hkey, rfl, rfl⟩ | ⟨hkey, h⟩
      · exact .inl ⟨.inr hkey, rfl⟩
      · obtain ⟨_, rfl, _, _⟩ := save_ok h
        refine .inr ⟨?_, rfl⟩
        rintro (hno | hno)
        · exact hstate hno
        · rw [hkey] at hno
          cases hno

theorem resume_state (h : (resume config r.row at_ event reason).run r = .ok (x, r')) :
    (ResumeIdle r event.outboxEventId ∧ r' = r) ∨
      (¬ ResumeIdle r event.outboxEventId ∧ r'.row.state = .running) := by
  unfold resume at h
  split at h
  · next pausedAt hstate hpaused =>
      rw [Transaction.lift_bind_eq_ok] at h
      obtain ⟨calendar, hcalendar, h⟩ := h
      rw [Transaction.lift_bind_eq_ok] at h
      obtain ⟨targetAt, htarget, h⟩ := h
      rw [Transaction.lift_bind_eq_ok] at h
      obtain ⟨warningAt, hwarning, h⟩ := h
      rcases recordGuard_ok h with ⟨hkey, rfl, rfl⟩ | ⟨hkey, h⟩
      · exact .inl ⟨.inr (.inr hkey), rfl⟩
      · obtain ⟨_, rfl, _, _⟩ := save_ok h
        refine .inr ⟨?_, rfl⟩
        rintro (hno | hno | hno)
        · exact hno hstate
        · rw [hpaused] at hno
          cases hno
        · rw [hkey] at hno
          cases hno
  · next hno =>
      obtain ⟨rfl, rfl⟩ := Transaction.pure_eq_ok.mp h
      refine .inl ⟨?_, rfl⟩
      by_cases hstate : r.row.state = .paused
      · right; left
        cases hpaused : r.row.pausedAt with
        | none => rfl
        | some pausedAt => exact absurd hpaused (hno pausedAt hstate)
      · exact .inl hstate

/-- A row that the end of its ticket leaves as it is: it has ended, was cancelled or never
    began, or the event was delivered before and there is no breach to record. -/
def StopIdle (config : SlaConfig) (r : SlaRecord) (at_ : Instant) (id : Uuid) : Prop :=
  r.row.completedAt ≠ none ∨ r.row.state = .cancelled ∨ r.row.state = .pending ∨
    ¬ (Overrun config at_ r.row ∧ r.hasKey .breach = false) ∧
      r.hasKey (.input id .stopped r.row.ticketSlaId) = true

/-- The end of `_complete`, on a row that may have been breached before it. -/
theorem stop_state {sla current : TicketSla} (hid : sla.ticketSlaId = r.row.ticketSlaId)
    (h : (stop sla current at_ event reason).run r = .ok (x, r')) :
    (r.hasKey (.input event.outboxEventId .stopped r.row.ticketSlaId) = true ∧ r' = r) ∨
      (r.hasKey (.input event.outboxEventId .stopped r.row.ticketSlaId) = false ∧
        (r'.row.state = .completed ∨ r'.row.state = .breached)) := by
  unfold stop at h
  rw [hid] at h
  rcases recordGuard_ok h with ⟨hkey, rfl, rfl⟩ | ⟨hkey, h⟩
  · exact .inl ⟨hkey, rfl⟩
  · refine .inr ⟨hkey, ?_⟩
    rw [Transaction.bind_eq_ok] at h
    obtain ⟨saved, r₁, hsave, h⟩ := h
    obtain ⟨_, hr₁, rfl, _⟩ := save_ok hsave
    have hended : r₁.row.state = .completed ∨ r₁.row.state = .breached := by
      rw [hr₁]
      exact stoppedRow_state current at_
    split at h
    · rw [Transaction.bind_eq_ok] at h
      obtain ⟨recorded, r₂, hrecord, h⟩ := h
      obtain ⟨_, rfl⟩ := Transaction.pure_eq_ok.mp h
      rw [recordEvent_once hrecord, SlaRecord.recordOnce_row]
      exact hended
    · obtain ⟨_, rfl⟩ := Transaction.pure_eq_ok.mp h
      exact hended

theorem complete_state (h : (complete config r.row at_ event reason).run r = .ok (x, r')) :
    (StopIdle config r at_ event.outboxEventId ∧ r' = r) ∨
      (¬ StopIdle config r at_ event.outboxEventId ∧
        (r'.row.state = .completed ∨ r'.row.state = .breached)) := by
  unfold complete at h
  split at h
  · next hdone =>
      obtain ⟨rfl, rfl⟩ := Transaction.pure_eq_ok.mp h
      refine .inl ⟨?_, rfl⟩
      rcases hdone with hcompleted | hcancelled | hpending
      · exact .inl (Option.isSome_iff_ne_none.mp hcompleted)
      · exact .inr (.inl hcancelled)
      · exact .inr (.inr (.inl hpending))
  · next hdone =>
      have hopen : ¬ r.row.completedAt ≠ none := fun hsome =>
        hdone (.inl (Option.isSome_iff_ne_none.mpr hsome))
      have hcancelled : r.row.state ≠ .cancelled := fun hstate => hdone (.inr (.inl hstate))
      have hpending : r.row.state ≠ .pending := fun hstate => hdone (.inr (.inr hstate))
      have hidle : StopIdle config r at_ event.outboxEventId ↔
          ¬ (Overrun config at_ r.row ∧ r.hasKey .breach = false) ∧
            r.hasKey (.input event.outboxEventId .stopped r.row.ticketSlaId) = true := by
        unfold StopIdle
        simp only [hopen, hcancelled, hpending, false_or]
      rw [hidle]
      rw [Transaction.lift_bind_eq_ok] at h
      obtain ⟨current, hcurrent, h⟩ := h
      have hoverrun : Overrun config at_ r.row ↔
          current.state = .running ∧ current.remainingWorkingSeconds ≤ 0 := by
        obtain ⟨_, _, _, hframe⟩ := calculated_frame hcurrent
        have hstate : current.state = r.row.state := by rw [hframe]
        unfold Overrun
        rw [hstate]
        refine and_congr_right fun _ => ⟨fun ⟨current', hcurrent', hused⟩ => ?_, fun hused => ?_⟩
        · rw [hcurrent] at hcurrent'
          obtain rfl := Except.ok.inj hcurrent'
          exact hused
        · exact ⟨current, hcurrent, hused⟩
      rw [hoverrun]
      split at h
      · next hover =>
          rw [Transaction.bind_eq_ok] at h
          obtain ⟨breached, r₁, hbreach, h⟩ := h
          rcases breach_ok hbreach with ⟨hkey, rfl, rfl⟩ | ⟨_, hkey, rfl, _, data, message, _, rfl⟩
          · -- the breach is recorded already
            have hrecorded : r₁.hasKey .breach = true := by
              rcases hkey with hstate | hkey
              · rw [hover.1] at hstate
                cases hstate
              · exact hkey
            rcases stop_state rfl h with ⟨hstopped, rfl⟩ | ⟨hstopped, hended⟩
            · refine .inl ⟨⟨fun hfresh => ?_, hstopped⟩, rfl⟩
              rw [hrecorded] at hfresh
              cases hfresh.2
            · refine .inr ⟨fun hno => ?_, hended⟩
              rw [hstopped] at hno
              cases hno.2
          · refine .inr ⟨fun hno => hno.1 ⟨hover, hkey⟩, ?_⟩
            have hid : r.row.ticketSlaId = (((r.addEvent ⟨.breached, at_, .breach, data⟩).put
                (breachedRow current at_)).emit message).row.ticketSlaId := by
              rw [SlaRecord.emit_row]
              rfl
            rcases stop_state hid h with ⟨_, rfl⟩ | ⟨_, hended⟩
            · rw [SlaRecord.emit_row]
              exact .inr rfl
            · exact hended
      · next hover =>
          rcases stop_state rfl h with ⟨hstopped, rfl⟩ | ⟨hstopped, hended⟩
          · exact .inl ⟨⟨fun hfresh => hover hfresh.1, hstopped⟩, rfl⟩
          · refine .inr ⟨fun hno => ?_, hended⟩
            rw [hstopped] at hno
            cases hno.2

/-- A completed row with time left that the event has not reopened before. -/
def Reopens (r : SlaRecord) (id : Uuid) : Prop :=
  r.row.state = .completed ∧ r.row.elapsedWorkingSeconds < r.row.goal.targetSeconds ∧
    r.hasKey (.input id .reopened r.row.ticketSlaId) = false

theorem reopen_state (h : (reopen config r.row at_ event).run r = .ok (x, r')) :
    (¬ Reopens r event.outboxEventId ∧
      (r' = r ∨ r.row.state = .completed ∧ r'.row.state = .breached)) ∨
      (Reopens r event.outboxEventId ∧ r'.row.state = .running) := by
  unfold reopen at h
  split at h
  · next hstate =>
      obtain ⟨rfl, rfl⟩ := Transaction.pure_eq_ok.mp h
      exact .inl ⟨fun hreopens => hstate hreopens.1, .inl rfl⟩
  · next hstate =>
      rw [not_not] at hstate
      rw [Transaction.lift_bind_eq_ok] at h
      obtain ⟨calendar, hcalendar, h⟩ := h
      dsimp only at h
      split at h
      · next hused =>
          refine .inl ⟨fun hreopens => ?_, ?_⟩
          · have hleft := hreopens.2.1
            omega
          · rcases breach_ok h with ⟨_, _, rfl⟩ | ⟨_, _, _, _, data, message, _, rfl⟩
            · exact .inl rfl
            · refine .inr ⟨hstate, ?_⟩
              rw [SlaRecord.emit_row]
              rfl
      · next hleft =>
          rw [Transaction.lift_bind_eq_ok] at h
          obtain ⟨targetAt, htarget, h⟩ := h
          rw [Transaction.lift_bind_eq_ok] at h
          obtain ⟨warningAt, hwarning, h⟩ := h
          rcases recordGuard_ok h with ⟨hkey, rfl, rfl⟩ | ⟨hkey, h⟩
          · refine .inl ⟨fun hreopens => ?_, .inl rfl⟩
            have hfresh := hreopens.2.2
            rw [hkey] at hfresh
            cases hfresh
          · obtain ⟨_, rfl, _, _⟩ := save_ok h
            exact .inr ⟨⟨hstate, by omega, hkey⟩, rfl⟩

/-! ## 2. Rows that follow their ticket -/

def PausesIn (definition : SlaDefinitionVersion) (status : String) : Prop :=
  ∃ statuses, pauseStatuses definition.pauseConditions = .ok statuses ∧ status ∈ statuses

/-- **A row that is neither ended nor cancelled** is paused in the pause statuses and runs
    in the others. -/
def FollowsTicket (definition : SlaDefinitionVersion) (status : String) (state : SlaState) : Prop :=
  state ≠ .completed → state ≠ .breached → state ≠ .cancelled →
    (state = .paused ↔ PausesIn definition status) ∧
      (state = .running ↔ ¬ PausesIn definition status)

theorem followsTicket_of_ended {definition : SlaDefinitionVersion} {status : String} {state : SlaState}
    (h : state = .completed ∨ state = .breached) : FollowsTicket definition status state := by
  intro hcompleted hbreached
  rcases h with h | h
  · exact absurd h hcompleted
  · exact absurd h hbreached

theorem followsTicket_paused {definition : SlaDefinitionVersion} {status : String} :
    FollowsTicket definition status .paused ↔ PausesIn definition status := by
  constructor
  · intro h
    exact (h (by decide) (by decide) (by decide)).1.mp rfl
  · intro hpauses _ _ _
    exact ⟨⟨fun _ => hpauses, fun _ => rfl⟩, nofun, fun hnot => absurd hpauses hnot⟩

theorem followsTicket_running {definition : SlaDefinitionVersion} {status : String} :
    FollowsTicket definition status .running ↔ ¬ PausesIn definition status := by
  constructor
  · intro h
    exact (h (by decide) (by decide) (by decide)).2.mp rfl
  · intro hpauses _ _ _
    exact ⟨⟨nofun, fun hyes => absurd hyes hpauses⟩, fun _ => hpauses, fun _ => rfl⟩

/-- **When a transition leaves the row following its ticket**: a row that is reopened must
    not be reopened into a pause status, and one that the event does nothing to must have
    followed before. -/
def KeepsUp (config : SlaConfig) (event : SlaInputEvent) (fromCategory toCategory toStatus : String)
    (r : SlaRecord) : Prop :=
  let id := event.outboxEventId
  let definition := r.row.definition
  let followed := FollowsTicket definition toStatus r.row.state
  if fromCategory = "DONE" ∧ toCategory ≠ "DONE" then
    (Reopens r id ∧ ¬ PausesIn definition toStatus) ∨ (¬ Reopens r id ∧ followed)
  else if toCategory = "DONE" then
    ¬ StopIdle config r event.occurredAt id ∨ followed
  else
    (PausesIn definition toStatus ∧ ¬ PauseIdle r id) ∨
      (¬ PausesIn definition toStatus ∧ ¬ ResumeIdle r id) ∨ followed

/-- **One row of a transition.** -/
theorem transitionRow_follows_iff {u : Unit} (hmetric : r.row.definition.metric = .resolution)
    (h : (transitionRow config ticket event fromCategory toCategory toStatus r.row).run r =
      .ok (u, r')) :
    FollowsTicket r.row.definition toStatus r'.row.state ↔
      KeepsUp config event fromCategory toCategory toStatus r := by
  unfold transitionRow at h
  rw [Transaction.lift_bind_eq_ok] at h
  obtain ⟨action, haction, h⟩ := h
  unfold transitionAction at haction
  rw [hmetric] at haction
  simp only at haction
  unfold KeepsUp
  simp only
  split at haction
  · -- the ticket leaves DONE: its pause statuses are not asked for
    next hleaves =>
      obtain rfl := Except.ok.inj haction
      rw [if_pos hleaves]
      rw [Transaction.bind_eq_ok] at h
      obtain ⟨_, r₁, hop, h⟩ := h
      obtain ⟨_, rfl⟩ := Transaction.pure_eq_ok.mp h
      rcases reopen_state hop with ⟨hnot, hsame⟩ | ⟨hreopens, hrunning⟩
      · have hfollows : FollowsTicket r.row.definition toStatus r₁.row.state ↔
            FollowsTicket r.row.definition toStatus r.row.state := by
          rcases hsame with rfl | ⟨hcompleted, hbreached⟩
          · exact Iff.rfl
          · exact iff_of_true (followsTicket_of_ended (.inr hbreached)) (followsTicket_of_ended (.inl hcompleted))
        simp only [hnot, false_and, not_false_iff, true_and, false_or]
        exact hfollows
      · rw [hrunning, followsTicket_running]
        simp only [hreopens, true_and, not_true, false_and, or_false]
  · next hleaves =>
      rw [if_neg hleaves]
      split at haction
      · next hdone =>
          obtain rfl := Except.ok.inj haction
          rw [if_pos hdone]
          rw [Transaction.bind_eq_ok] at h
          obtain ⟨_, r₁, hop, h⟩ := h
          obtain ⟨_, rfl⟩ := Transaction.pure_eq_ok.mp h
          rcases complete_state hop with ⟨hidle, rfl⟩ | ⟨hbusy, hended⟩
          · simp only [hidle, not_true, false_or]
          · exact iff_of_true (followsTicket_of_ended hended) (.inl hbusy)
      · next hdone =>
          rw [if_neg hdone]
          rw [bind_eq_ok] at haction
          obtain ⟨statuses, hstatuses, haction⟩ := haction
          have hpauses : PausesIn r.row.definition toStatus ↔ statuses.contains toStatus = true := by
            rw [List.contains_iff_mem]
            unfold PausesIn
            rw [hstatuses]
            simp
          split at haction
          · next hcontains =>
              have hyes : PausesIn r.row.definition toStatus := hpauses.mpr hcontains
              obtain rfl := Except.ok.inj haction
              rw [Transaction.bind_eq_ok] at h
              obtain ⟨_, r₁, hop, h⟩ := h
              obtain ⟨_, rfl⟩ := Transaction.pure_eq_ok.mp h
              rcases pause_state hop with ⟨hidle, rfl⟩ | ⟨hbusy, hpaused⟩
              · simp only [hyes, hidle, not_true, and_false, false_and, false_or]
              · rw [hpaused, followsTicket_paused]
                exact iff_of_true hyes (.inl ⟨hyes, hbusy⟩)
          · next hcontains =>
              have hno : ¬ PausesIn r.row.definition toStatus := fun hyes =>
                hcontains (hpauses.mp hyes)
              split at haction
              · obtain rfl := Except.ok.inj haction
                rw [Transaction.bind_eq_ok] at h
                obtain ⟨_, r₁, hop, h⟩ := h
                obtain ⟨_, rfl⟩ := Transaction.pure_eq_ok.mp h
                rcases resume_state hop with ⟨hidle, rfl⟩ | ⟨hbusy, hrunning⟩
                · simp only [hno, hidle, not_true, and_false, false_and, false_or]
                · rw [hrunning, followsTicket_running]
                  exact iff_of_true hno (.inr (.inl ⟨hno, hbusy⟩))
              · next hstate =>
                  obtain rfl := Except.ok.inj haction
                  obtain ⟨_, rfl⟩ := Transaction.pure_eq_ok.mp h
                  have hidle : ResumeIdle r event.outboxEventId := .inl hstate
                  simp only [hno, hidle, not_true, and_false, false_and, false_or]

/-- **A row follows its ticket after a transition exactly when the transition keeps it
    up**, whatever state it was in. -/
theorem follows_iff {s s' : Store} {u : Unit}
    (htype : event.eventType = .ticketWorkflowTransitioned)
    (h : (process event).run s = .ok (u, s')) :
    ∃ fromStatus toStatus fromCategory toCategory,
      requiredString event.payload "from_status" = .ok fromStatus ∧
      requiredString event.payload "to_status" = .ok toStatus ∧
      s.statusCategory event.ticketId fromStatus = some fromCategory ∧
      s.statusCategory event.ticketId toStatus = some toCategory ∧
      List.Forall₂ (fun r r' => Store.ofTicket event.tenantId event.ticketId r.row = true →
        r.row.definition.metric = .resolution →
          (FollowsTicket r.row.definition toStatus r'.row.state ↔
            KeepsUp s.config event fromCategory toCategory toStatus r)) s.records s'.records := by
  obtain ⟨_, ticket, hticket, h⟩ := process_dispatch h
  obtain ⟨htenant, hid⟩ := ticket_ids hticket
  unfold dispatch at h
  rw [htype] at h
  unfold transition at h
  rw [Transaction.get_bind, Transaction.lift_bind_eq_ok] at h
  obtain ⟨fromStatus, hfrom, h⟩ := h
  rw [Transaction.lift_bind_eq_ok] at h
  obtain ⟨toStatus, hto, h⟩ := h
  split at h
  · next fromCategory toCategory hfromCategory htoCategory =>
      obtain ⟨_, hrows⟩ := forRows_ok h
      rw [hid] at hfromCategory htoCategory
      refine ⟨fromStatus, toStatus, fromCategory, toCategory, hfrom, hto, hfromCategory,
        htoCategory, hrows.imp fun r r' hr hof hmetric => ?_⟩
      rw [htenant, hid] at hr
      rcases hr with ⟨_, u, hrow⟩ | ⟨hother, _⟩
      · exact transitionRow_follows_iff hmetric hrow
      · rw [hother] at hof
        cases hof
  · exact (Transaction.throw_ne_ok.mp h).elim

/-- The sample ticket, which begins to wait. -/
theorem follows_iff_waiting :
    waitingStore.records.length = 1 ∧
    ∃ fromStatus toStatus fromCategory toCategory,
      requiredString (sampleTransition 3 "WORKING" "WAITING" 20).payload "from_status" =
        .ok fromStatus ∧
      requiredString (sampleTransition 3 "WORKING" "WAITING" 20).payload "to_status" =
        .ok toStatus ∧
      workedStore.statusCategory 9 fromStatus = some fromCategory ∧
      workedStore.statusCategory 9 toStatus = some toCategory ∧
      List.Forall₂ (fun r r' => Store.ofTicket 5 9 r.row = true →
        r.row.definition.metric = .resolution →
          (FollowsTicket r.row.definition toStatus r'.row.state ↔
            KeepsUp workedStore.config (sampleTransition 3 "WORKING" "WAITING" 20) fromCategory
              toCategory toStatus r)) workedStore.records waitingStore.records :=
  ⟨by decide +kernel, follows_iff rfl
    (process_commits workedStore (sampleTransition 3 "WORKING" "WAITING" 20) (by decide +kernel))⟩

/-- **Reopened into a pause status, the clock runs.** -/
theorem reopened_waiting_runs :
    ¬ ∀ (s₀ s s' : Store) (ls : List SlaLabel) (event : SlaInputEvent) (toStatus : String),
      Run SlaStep s₀ ls s → s₀.records = [] →
      event.eventType = .ticketWorkflowTransitioned →
      (process event).run s = .ok ((), s') →
      requiredString event.payload "to_status" = .ok toStatus →
      ∀ r ∈ s'.records, Store.ofTicket event.tenantId event.ticketId r.row = true →
        r.row.definition.metric = .resolution → FollowsTicket r.row.definition toStatus r.row.state := by
  intro hclaim
  let resolved := execute Store.next sampleStore
    [.input (sampleEvent 1 .startSla 0), .input (sampleTransition 2 "OPEN" "DONE" 10)]
  let reopening := sampleTransition 3 "DONE" "WAITING" 20
  have hrun : Run SlaStep sampleStore _ resolved := sampleRun (by simp)
  have hprocess := process_commits resolved reopening (by decide +kernel)
  have hfollows := hclaim sampleStore resolved _ _ reopening "WAITING" hrun rfl rfl hprocess rfl
  have hrow : ∃ r ∈ (resolved.next (.input reopening)).records, Store.ofTicket 5 9 r.row = true ∧
      r.row.definition.metric = .resolution ∧ r.row.state = .running ∧
      pauseStatuses r.row.definition.pauseConditions = .ok ["WAITING"] := by
    decide +kernel
  obtain ⟨r, hr, hof, hmetric, hstate, hpauses⟩ := hrow
  have hruns := hfollows r hr hof hmetric
  rw [hstate, followsTicket_running] at hruns
  exact hruns ⟨["WAITING"], hpauses, List.mem_singleton_self _⟩

end Helpdesk.Sla
