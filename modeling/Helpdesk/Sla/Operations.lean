/-
  File:      Helpdesk/Sla/Operations.lean
  Subject:   Each operation of the engine as a run of changes.

  For every operation on a row: the condition under which it does nothing, and
  the changes it makes otherwise (`pause_ok`, `resume_ok`, `complete_ok`,
  `reopen_ok`, `recalculate_ok`, `dueRow_ok`, `startRow_ok`).

  The operations call `breach` on rows that are not breached; that such a row has
  no breach event yet is the hypothesis `BreachKept`, which every change keeps.
-/
import Helpdesk.Sla.Changes

namespace Helpdesk.Sla

open Helpdesk.Python

variable {config : SlaConfig} {r r' : SlaRecord}

/-- The breach event is there only with the state it comes with. -/
def BreachKept (r : SlaRecord) : Prop := r.hasKey .breach = true → r.row.state = .breached

theorem BreachKept.fresh (h : BreachKept r) (hstate : r.row.state ≠ .breached) :
    r.hasKey .breach = false := by
  rw [Bool.eq_false_iff]
  exact fun hkey => hstate (h hkey)

/-- A key other than the breach key is of no concern to `BreachKept`. -/
theorem BreachKept.addEvent {event : SlaEvent} (h : BreachKept r) (hkey : event.eventKey ≠ .breach) :
    BreachKept (r.addEvent event) := by
  intro hbreach
  rw [SlaRecord.hasKey_addEvent, decide_eq_false hkey, Bool.or_false] at hbreach
  exact h hbreach

/-- A save keeps it unless it takes a breached row out of its state. -/
theorem BreachKept.put {sla : TicketSla} (h : BreachKept r)
    (hstate : r.row.state = .breached → sla.state = .breached) : BreachKept (r.put sla) :=
  fun hbreach => hstate (h hbreach)

theorem BreachKept.metIfCompleted {met : SlaEvent} (h : BreachKept r)
    (hkey : met.eventKey ≠ .breach) : BreachKept (r.metIfCompleted met) := by
  unfold SlaRecord.metIfCompleted
  split
  · intro hbreach
    rw [SlaRecord.hasKey_recordOnce, decide_eq_false hkey, Bool.or_false] at hbreach
    rw [SlaRecord.recordOnce_row]
    exact h hbreach
  · exact h

/-- **Every change keeps it.** -/
theorem BreachKept.change {w : Write} (h : BreachKept r) (hc : Change config r w r') :
    BreachKept r' := by
  have hne : ∀ {state : SlaState}, r.row.state = state → state ≠ .breached →
      r.row.state = .breached → False := by
    intro state hstate hother hbreached
    exact hother (hstate.symm.trans hbreached)
  cases hc with
  | noted hevent hkey hnew =>
      obtain ⟨id, hkey⟩ := hkey
      exact h.addEvent (by rw [hkey]; exact EventKey.noConfusion)
  | advanced hstate hlast hcurrent hchecks =>
      exact h.put fun hb => (hne hstate (by decide) hb).elim
  | warned hstate hnone hgoal hnew hmessage hchecks =>
      intro hbreach
      rw [SlaRecord.hasKey_emit, SlaRecord.hasKey_put, SlaRecord.hasKey_addEvent] at hbreach
      exact (hne hstate (by decide) (h (by simpa using hbreach))).elim
  | breached hstate hcurrent hused hnew hmessage hchecks =>
      intro _
      rw [SlaRecord.emit_row]
      rfl
  | breachedOnReopen hstate hused hnew hmessage hchecks =>
      intro _
      rw [SlaRecord.emit_row]
      rfl
  | paused hstate hcurrent hnew hchecks =>
      exact (h.addEvent EventKey.noConfusion).put fun hb => (hne hstate (by decide) hb).elim
  | resumed hstate hpaused hcalendar htarget hwarning hnew hsla hchecks =>
      exact (h.addEvent EventKey.noConfusion).put fun hb => (hne hstate (by decide) hb).elim
  | stopped hopen hstate hcurrent hleft hnew hchecks =>
      refine ((h.addEvent EventKey.noConfusion).put fun hb => ?_).metIfCompleted
        EventKey.noConfusion
      obtain ⟨_, _, _, rfl⟩ := calculated_frame hcurrent
      exact if_pos hb
  | reopened hstate hcalendar hremaining hleft htarget hwarning hnew hsla hchecks =>
      exact (h.addEvent EventKey.noConfusion).put fun hb => (hne hstate (by decide) hb).elim
  | recalculated hstate hcurrent hcalendar hremaining htarget hwarning hnew hsla hchecks =>
      exact (h.addEvent EventKey.noConfusion).put fun hb => (hstate.2.2 hb).elim

/-! ## 1. The conditions under which an operation does nothing -/

section Idle

variable (config) (at_ : Instant) (id : Uuid) (r)

def PauseIdle : Prop :=
  r.row.state ≠ .running ∨ r.hasKey (.input id .paused r.row.ticketSlaId) = true

def ResumeIdle : Prop :=
  r.row.state ≠ .paused ∨ r.row.pausedAt = none ∨
    r.hasKey (.input id .resumed r.row.ticketSlaId) = true

/-- The row runs, and its clock at `at_` has used the whole target. -/
def Overrun (sla : TicketSla) : Prop :=
  sla.state = .running ∧
    ∃ current, calculated config sla at_ = .ok current ∧ current.remainingWorkingSeconds ≤ 0

def CompleteIdle : Prop :=
  r.row.completedAt ≠ none ∨ r.row.state = .cancelled ∨ r.row.state = .pending ∨
    ¬ Overrun config at_ r.row ∧ r.hasKey (.input id .stopped r.row.ticketSlaId) = true

def ReopenIdle : Prop :=
  r.row.state ≠ .completed ∨ r.row.elapsedWorkingSeconds < r.row.goal.targetSeconds ∧
    r.hasKey (.input id .reopened r.row.ticketSlaId) = true

def RecalculateIdle : Prop :=
  r.row.state = .cancelled ∨ r.row.state = .completed ∨ r.row.state = .breached ∨
    r.hasKey (.input id .recalculated r.row.ticketSlaId) = true

end Idle

/-! ## 2. Breach, warning, advance -/

/-- `breach` on any in-memory row: nothing, or the event, the save and the message. -/
theorem breach_ok {sla x : TicketSla} {at_ : Instant}
    (h : (breach sla at_).run r = .ok (x, r')) :
    ((sla.state = .breached ∨ r.hasKey .breach = true) ∧ x = sla ∧ r' = r) ∨
      (sla.state ≠ .breached ∧ r.hasKey .breach = false ∧ x = r'.row ∧
        Checked r (breachedRow sla at_) ∧ ∃ data message, message.eventType = .slaBreached ∧
          r' = ((r.addEvent ⟨.breached, at_, .breach, data⟩).put (breachedRow sla at_)).emit
            message) := by
  unfold breach at h
  split at h
  · rename_i hstate
    obtain ⟨rfl, rfl⟩ := Transaction.pure_eq_ok.mp h
    exact Or.inl ⟨Or.inl hstate, rfl, rfl⟩
  · rename_i hstate
    rcases recordGuard_ok h with ⟨hkey, rfl, rfl⟩ | ⟨hkey, h⟩
    · exact Or.inl ⟨Or.inr hkey, rfl, rfl⟩
    · rw [Transaction.bind_eq_ok] at h
      obtain ⟨saved, r₁, hsave, h⟩ := h
      obtain ⟨_, rfl, rfl, hchecks⟩ := save_ok hsave
      rw [Transaction.bind_eq_ok] at h
      obtain ⟨_, r₂, hemit, h⟩ := h
      obtain rfl := emitOutbox_ok hemit
      obtain ⟨rfl, rfl⟩ := Transaction.pure_eq_ok.mp h
      exact Or.inr ⟨hstate, hkey, SlaRecord.emit_row.symm, hchecks, _, _, rfl, rfl⟩

/-- `breach` on a running row whose clock, moved to `at_`, has used the target. -/
theorem breach_change {current x : TicketSla} {at_ : Instant} (hkept : BreachKept r)
    (hstate : r.row.state = .running) (hcurrent : calculated config r.row at_ = .ok current)
    (hused : current.remainingWorkingSeconds ≤ 0)
    (h : (breach current at_).run r = .ok (x, r')) :
    Change config r ⟨.breached, at_, breachedRow current at_⟩ r' ∧ x = r'.row ∧
      r'.row = SlaRecord.update r.row (breachedRow current at_) ∧
      ∀ key, r'.hasKey key = (r.hasKey key || decide (EventKey.breach = key)) := by
  have hfresh : r.hasKey .breach = false := hkept.fresh (by rw [hstate]; decide)
  have hrunning : current.state = .running := by
    obtain ⟨_, _, _, rfl⟩ := calculated_frame hcurrent
    exact hstate
  rcases breach_ok h with ⟨hno | hno, _⟩ | ⟨_, _, rfl, hchecks, data, message, hmessage, rfl⟩
  · rw [hrunning] at hno
    cases hno
  · rw [hfresh] at hno
    cases hno
  · refine ⟨.breached hstate hcurrent hused hfresh hmessage hchecks, rfl, SlaRecord.emit_row, ?_⟩
    intro key
    rw [SlaRecord.hasKey_emit, SlaRecord.hasKey_put, SlaRecord.hasKey_addEvent]

/-! ## 3. The operations of an event -/

/-- **`pause`.** -/
theorem pause_ok {at_ : Instant} {event : SlaInputEvent} {reason : String} {x : TicketSla}
    (h : (pause config r.row at_ event reason).run r = .ok (x, r')) :
    Does config (PauseIdle r event.outboxEventId)
      (fun w => w.kind = .paused ∧ w.at_ = at_ ∧ r.row.state = .running ∧
        ∃ current, calculated config r.row at_ = .ok current ∧
          w.sla.remainingWorkingSeconds = current.remainingWorkingSeconds) r r' := by
  unfold pause at h
  split at h
  · rename_i hstate
    obtain ⟨rfl, rfl⟩ := Transaction.pure_eq_ok.mp h
    exact .nothing (Or.inl hstate)
  · rename_i hstate
    rw [not_not] at hstate
    rw [Transaction.lift_bind_eq_ok] at h
    obtain ⟨current, hcurrent, h⟩ := h
    rcases recordGuard_ok h with ⟨hkey, rfl, rfl⟩ | ⟨hkey, h⟩
    · exact .nothing (Or.inr hkey)
    · obtain ⟨_, rfl, _, hchecks⟩ := save_ok h
      refine .one ?_ (.paused hstate hcurrent hkey hchecks)
        ⟨rfl, rfl, hstate, current, hcurrent, rfl⟩
      unfold PauseIdle
      rw [hstate, hkey]
      decide

/-- **`resume`.** -/
theorem resume_ok {at_ : Instant} {event : SlaInputEvent} {reason : String} {x : TicketSla}
    (h : (resume config r.row at_ event reason).run r = .ok (x, r')) :
    Does config (ResumeIdle r event.outboxEventId) (fun w => w.kind = .resumed ∧ w.at_ = at_)
      r r' := by
  unfold resume at h
  split at h
  · rename_i pausedAt hstate hpaused
    rw [Transaction.lift_bind_eq_ok] at h
    obtain ⟨calendar, hcalendar, h⟩ := h
    rw [Transaction.lift_bind_eq_ok] at h
    obtain ⟨targetAt, htarget, h⟩ := h
    rw [Transaction.lift_bind_eq_ok] at h
    obtain ⟨warningAt, hwarning, h⟩ := h
    rcases recordGuard_ok h with ⟨hkey, rfl, rfl⟩ | ⟨hkey, h⟩
    · exact .nothing (Or.inr (Or.inr hkey))
    · obtain ⟨_, rfl, _, hchecks⟩ := save_ok h
      refine .one ?_ (.resumed hstate hpaused hcalendar htarget hwarning hkey rfl hchecks)
        ⟨rfl, rfl⟩
      unfold ResumeIdle
      rw [hstate, hpaused, hkey]
      simp
  · rename_i hno
    obtain ⟨rfl, rfl⟩ := Transaction.pure_eq_ok.mp h
    refine .nothing ?_
    by_cases hstate : r.row.state = .paused
    · right; left
      cases hpaused : r.row.pausedAt with
      | none => rfl
      | some pausedAt => exact absurd hpaused (hno pausedAt hstate)
    · exact Or.inl hstate

/-- The stop of a row whose clock, moved to `at_`, has target left or does not run. -/
theorem stop_ok {current sla x : TicketSla} {at_ : Instant} {event : SlaInputEvent}
    {reason : String} (hid : sla.ticketSlaId = r.row.ticketSlaId) (hopen : r.row.completedAt = none)
    (hstate : r.row.state ≠ .cancelled ∧ r.row.state ≠ .pending)
    (hcurrent : calculated config r.row at_ = .ok current)
    (hleft : current.state = .running → 0 < current.remainingWorkingSeconds)
    (h : (stop sla current at_ event reason).run r = .ok (x, r')) :
    (r.hasKey (.input event.outboxEventId .stopped r.row.ticketSlaId) = true ∧ r' = r) ∨
      (r.hasKey (.input event.outboxEventId .stopped r.row.ticketSlaId) = false ∧
        Change config r ⟨.stopped, at_, stoppedRow current at_⟩ r') := by
  unfold stop at h
  rw [hid] at h
  rcases recordGuard_ok h with ⟨hkey, rfl, rfl⟩ | ⟨hkey, h⟩
  · exact Or.inl ⟨hkey, rfl⟩
  · refine Or.inr ⟨hkey, ?_⟩
    rw [Transaction.bind_eq_ok] at h
    obtain ⟨saved, r₁, hsave, h⟩ := h
    obtain ⟨_, hr₁, rfl, hchecks⟩ := save_ok hsave
    have hmet : ∃ metData, r' = r₁.metIfCompleted
        ⟨.met, at_, .input event.outboxEventId .met r.row.ticketSlaId, metData⟩ := by
      unfold SlaRecord.metIfCompleted
      split at h
      · rename_i hcompleted
        rw [Transaction.bind_eq_ok] at h
        obtain ⟨recorded, r₂, hrecord, h⟩ := h
        obtain ⟨_, rfl⟩ := Transaction.pure_eq_ok.mp h
        exact ⟨_, by rw [if_pos hcompleted]; exact recordEvent_once hrecord⟩
      · rename_i hcompleted
        obtain ⟨_, rfl⟩ := Transaction.pure_eq_ok.mp h
        exact ⟨[], by rw [if_neg hcompleted]⟩
    obtain ⟨metData, rfl⟩ := hmet
    rw [hr₁] at hchecks ⊢
    exact .stopped hopen hstate hcurrent hleft hkey hchecks

/-- **`complete`.** -/
theorem complete_ok {at_ : Instant} {event : SlaInputEvent} {reason : String} {x : TicketSla}
    (hkept : BreachKept r)
    (h : (complete config r.row at_ event reason).run r = .ok (x, r')) :
    Does config (CompleteIdle config r at_ event.outboxEventId)
      (fun w => (w.kind = .breached ∨ w.kind = .stopped) ∧ w.at_ = at_) r r' := by
  unfold complete at h
  split at h
  · rename_i hdone
    obtain ⟨rfl, rfl⟩ := Transaction.pure_eq_ok.mp h
    refine .nothing ?_
    rcases hdone with hcompleted | hcancelled | hpending
    · left
      intro hnone
      rw [hnone] at hcompleted
      cases hcompleted
    · exact Or.inr (Or.inl hcancelled)
    · exact Or.inr (Or.inr (Or.inl hpending))
  · rename_i hdone
    obtain ⟨hopen, hcancelled, hpending⟩ := not_or.mp hdone |>.imp_right not_or.mp
    rw [Option.not_isSome_iff_eq_none] at hopen
    rw [Transaction.lift_bind_eq_ok] at h
    obtain ⟨current, hcurrent, h⟩ := h
    split at h
    · rename_i hover
      have hrunning : r.row.state = .running := by
        rcases calculated_ok hcurrent with ⟨_, rfl⟩ | ⟨hr, _⟩
        · exact hover.1
        · exact hr
      have hoverrun : Overrun config at_ r.row := ⟨hrunning, current, hcurrent, hover.2⟩
      have hbusy : ¬ CompleteIdle config r at_ event.outboxEventId := by
        rintro (hno | hno | hno | hno)
        · exact hno hopen
        · exact hcancelled hno
        · exact hpending hno
        · exact hno.1 hoverrun
      rw [Transaction.bind_eq_ok] at h
      obtain ⟨breached, r₁, hbreach, h⟩ := h
      obtain ⟨hchange, rfl, hrow, hkeys⟩ := breach_change hkept hrunning hcurrent hover.2 hbreach
      obtain ⟨_, _, _, rfl⟩ := calculated_frame hcurrent
      have hstate₁ : r₁.row.state = .breached := by rw [hrow]; rfl
      have hcurrent₁ : calculated config r₁.row at_ = .ok r₁.row :=
        calculated_still (Or.inl (by rw [hstate₁]; decide))
      rcases stop_ok (by rw [hrow]; rfl) (by rw [hrow]; exact hopen) (by rw [hstate₁]; decide)
          hcurrent₁ (by rw [hstate₁]; intro hno; cases hno) h with ⟨_, rfl⟩ | ⟨_, hstop⟩
      · exact .one hbusy hchange ⟨Or.inl rfl, rfl⟩
      · exact .two hbusy hchange hstop ⟨Or.inl rfl, rfl⟩ ⟨Or.inr rfl, rfl⟩
    · rename_i hover
      have hunder : ¬ Overrun config at_ r.row := by
        rintro ⟨hrunning, current', hcurrent', hused⟩
        rw [hcurrent] at hcurrent'
        obtain rfl := Except.ok.inj hcurrent'
        obtain ⟨_, _, _, rfl⟩ := calculated_frame hcurrent
        exact hover ⟨hrunning, hused⟩
      have hleft : current.state = .running → 0 < current.remainingWorkingSeconds := by
        intro hrunning
        by_contra hno
        exact hover ⟨hrunning, Int.not_lt.mp hno⟩
      rcases stop_ok rfl hopen ⟨hcancelled, hpending⟩ hcurrent hleft h with
        ⟨hkey, rfl⟩ | ⟨hkey, hstop⟩
      · exact .nothing (Or.inr (Or.inr (Or.inr ⟨hunder, hkey⟩)))
      · refine .one ?_ hstop ⟨Or.inr rfl, rfl⟩
        rintro (hno | hno | hno | hno)
        · exact hno hopen
        · exact hcancelled hno
        · exact hpending hno
        · rw [hkey] at hno
          exact Bool.false_ne_true hno.2

/-- **`reopen`.** -/
theorem reopen_ok {at_ : Instant} {event : SlaInputEvent} {x : TicketSla} (hkept : BreachKept r)
    (h : (reopen config r.row at_ event).run r = .ok (x, r')) :
    Does config (ReopenIdle r event.outboxEventId)
      (fun w => (w.kind = .breached ∨ w.kind = .reopened) ∧ w.at_ = at_) r r' := by
  unfold reopen at h
  split at h
  · rename_i hstate
    obtain ⟨rfl, rfl⟩ := Transaction.pure_eq_ok.mp h
    exact .nothing (Or.inl hstate)
  · rename_i hstate
    rw [not_not] at hstate
    rw [Transaction.lift_bind_eq_ok] at h
    obtain ⟨calendar, hcalendar, h⟩ := h
    dsimp only at h
    split at h
    · rename_i hused
      have hfresh : r.hasKey .breach = false := hkept.fresh (by rw [hstate]; decide)
      have htarget : r.row.goal.targetSeconds ≤ r.row.elapsedWorkingSeconds := by omega
      rcases breach_ok h with ⟨hno | hno, _⟩ | ⟨_, _, _, hchecks, data, message, hmessage, rfl⟩
      · rw [hstate] at hno
        cases hno
      · rw [hfresh] at hno
        cases hno
      · refine .one ?_ (.breachedOnReopen hstate htarget hfresh hmessage hchecks) ⟨Or.inl rfl, rfl⟩
        rintro (hno | hno)
        · exact hno hstate
        · omega
    · rename_i hleft
      rw [Transaction.lift_bind_eq_ok] at h
      obtain ⟨targetAt, htarget, h⟩ := h
      rw [Transaction.lift_bind_eq_ok] at h
      obtain ⟨warningAt, hwarning, h⟩ := h
      have hpositive : 0 < r.row.goal.targetSeconds - r.row.elapsedWorkingSeconds := by omega
      rcases recordGuard_ok h with ⟨hkey, rfl, rfl⟩ | ⟨hkey, h⟩
      · exact .nothing (Or.inr ⟨by omega, hkey⟩)
      · obtain ⟨_, rfl, _, hchecks⟩ := save_ok h
        refine .one ?_ (.reopened hstate hcalendar (max_eq_right (Int.le_of_lt hpositive))
          (by omega) htarget hwarning hkey rfl hchecks) ⟨Or.inr rfl, rfl⟩
        rintro (hno | hno)
        · exact hno hstate
        · rw [hkey] at hno
          exact Bool.false_ne_true hno.2

/-- **`recalculate`.** -/
theorem recalculate_ok {ticket : TicketFacts} {event : SlaInputEvent} {u : Unit}
    (hkept : BreachKept r)
    (h : (recalculate config ticket event r.row).run r = .ok (u, r')) :
    Does config (RecalculateIdle r event.outboxEventId)
      (fun w => (w.kind = .breached ∨ w.kind = .recalculated ∧ w.sla.state = r.row.state ∧
          (r.row.state ≠ .running → w.sla.elapsedWorkingSeconds = r.row.elapsedWorkingSeconds) ∧
          selectGoal config r.row.definition ticket event.occurredAt = .ok w.sla.goal) ∧
        w.at_ = event.occurredAt) r r' := by
  unfold recalculate at h
  split at h
  · rename_i hstate
    obtain ⟨_, rfl⟩ := Transaction.pure_eq_ok.mp h
    exact .nothing (hstate.imp_right (Or.imp_right Or.inl))
  · rename_i hstate
    obtain ⟨hcancelled, hcompleted, hbreached⟩ := not_or.mp hstate |>.imp_right not_or.mp
    dsimp only at h
    rw [Transaction.lift_bind_eq_ok] at h
    obtain ⟨current, hcurrent, h⟩ := h
    rw [Transaction.lift_bind_eq_ok] at h
    obtain ⟨goal, hgoal, h⟩ := h
    rw [Transaction.lift_bind_eq_ok] at h
    obtain ⟨calendar, hcalendar, h⟩ := h
    rw [Transaction.lift_bind_eq_ok] at h
    obtain ⟨targetAt, htarget, h⟩ := h
    rw [Transaction.lift_bind_eq_ok] at h
    obtain ⟨warningAt, hwarning, h⟩ := h
    generalize hremaining : max 0 (goal.targetSeconds - current.elapsedWorkingSeconds) = remaining
      at h htarget hwarning
    generalize hsla : ({ current with
      goal := goal
      remainingWorkingSeconds := remaining
      targetAt := targetAt
      warningAt := warningAt
      lastCalculatedAt := event.occurredAt } : TicketSla) = sla at h
    have hstate' : sla.state = r.row.state := by
      obtain ⟨_, _, _, rfl⟩ := calculated_frame hcurrent
      rw [← hsla]
    have hgoal' : selectGoal config r.row.definition ticket event.occurredAt = .ok sla.goal := by
      rw [← hsla]
      exact hgoal
    have hclock : r.row.state ≠ .running →
        sla.elapsedWorkingSeconds = r.row.elapsedWorkingSeconds := by
      intro hrest
      rw [calculated_still (Or.inl hrest)] at hcurrent
      rw [← hsla, ← Except.ok.inj hcurrent]
    rcases recordGuard_ok h with ⟨hkey, _, rfl⟩ | ⟨hkey, h⟩
    · exact .nothing (Or.inr (Or.inr (Or.inr hkey)))
    · have hbusy : ¬ RecalculateIdle r event.outboxEventId := by
        rintro (hno | hno | hno | hno)
        · exact hcancelled hno
        · exact hcompleted hno
        · exact hbreached hno
        · rw [hkey] at hno
          exact Bool.false_ne_true hno
      rw [Transaction.bind_eq_ok] at h
      obtain ⟨saved, r₁, hsave, h⟩ := h
      obtain ⟨_, hr₁, rfl, hchecks⟩ := save_ok hsave
      have hchange : Change config r ⟨.recalculated, event.occurredAt, sla⟩ r₁ := by
        rw [hr₁] at hchecks ⊢
        exact .recalculated ⟨hcancelled, hcompleted, hbreached⟩ hcurrent hcalendar
          hremaining.symm htarget hwarning hkey hsla.symm hchecks
      split at h
      · rename_i hover
        rw [Transaction.bind_eq_ok] at h
        obtain ⟨_, r₂, hbreach, h⟩ := h
        obtain ⟨_, rfl⟩ := Transaction.pure_eq_ok.mp h
        have hkept₁ : BreachKept r₁ := by
          intro hkey₁
          rw [hr₁, SlaRecord.hasKey_put, SlaRecord.hasKey_addEvent] at hkey₁
          rw [hkept.fresh hbreached] at hkey₁
          cases hkey₁
        have hstands : event.occurredAt ≤ r₁.row.lastCalculatedAt := by
          rw [hr₁, SlaRecord.put_row, ← hsla]
          exact Int.le_refl _
        have hused : r₁.row.remainingWorkingSeconds ≤ 0 := by
          rw [hr₁, SlaRecord.put_row, ← hsla]
          exact Int.le_of_eq hover.2
        obtain ⟨hbreached, _⟩ :=
          breach_change hkept₁ hover.1 (calculated_still (Or.inr hstands)) hused hbreach
        exact .two hbusy hchange hbreached ⟨Or.inr ⟨rfl, hstate', hclock, hgoal'⟩, rfl⟩
          ⟨Or.inl rfl, rfl⟩
      · obtain ⟨_, rfl⟩ := Transaction.pure_eq_ok.mp h
        exact .one hbusy hchange ⟨Or.inr ⟨rfl, hstate', hclock, hgoal'⟩, rfl⟩

/-! ## 4. The due scan -/

/-- A running row after `advance`: it runs, its clock stands at `at_` or later, and
    it has been saved exactly if its clock was behind. -/
theorem advance_ok {at_ : Instant} {x : TicketSla} (hstate : r.row.state = .running)
    (h : (advance config r.row at_).run r = .ok (x, r')) :
    x = r'.row ∧ r'.row.state = .running ∧ at_ ≤ r'.row.lastCalculatedAt ∧
      (∀ key, r'.hasKey key = r.hasKey key) ∧
      ((r' = r ∧ at_ ≤ r.row.lastCalculatedAt) ∨
        ∃ current, Change config r ⟨.advanced, at_, current⟩ r') := by
  unfold advance at h
  rw [if_neg (not_not.mpr hstate), Transaction.lift_bind_eq_ok] at h
  obtain ⟨current, hcurrent, h⟩ := h
  rcases calculated_ok hcurrent with ⟨hstill, rfl⟩ | ⟨_, hlast, calendar, k, hcalendar, hk, rfl⟩
  · have hlast : at_ ≤ r.row.lastCalculatedAt := hstill.resolve_left (not_not.mpr hstate)
    rw [if_pos (by simp [sameClock])] at h
    obtain ⟨rfl, rfl⟩ := Transaction.pure_eq_ok.mp h
    exact ⟨rfl, hstate, hlast, fun _ => rfl, Or.inl ⟨rfl, hlast⟩⟩
  · have hmoved : ¬ sameClock { r.row with
        elapsedWorkingSeconds := r.row.elapsedWorkingSeconds + k
        remainingWorkingSeconds :=
          max 0 (r.row.goal.targetSeconds - (r.row.elapsedWorkingSeconds + k))
        lastCalculatedAt := at_ } r.row = true := by
      unfold sameClock
      simp only [Bool.and_eq_true, decide_eq_true_eq, not_and]
      intro _ hsame
      exact absurd hsame (Int.ne_of_gt hlast)
    rw [if_neg hmoved] at h
    obtain ⟨_, rfl, rfl, hchecks⟩ := save_ok h
    exact ⟨rfl, hstate, Int.le_refl _, fun _ => rfl,
      Or.inr ⟨_, .advanced hstate hlast hcurrent hchecks⟩⟩

/-- `warning` on the row as it is saved. -/
theorem warning_ok {at_ : Instant} {x : TicketSla} (hstate : r.row.state = .running)
    (hnone : r.row.warningEmittedAt = none)
    (hgoal : ∃ w ∈ r.row.goal.warningSeconds, r.row.remainingWorkingSeconds ≤ w)
    (h : (warning r.row at_).run r = .ok (x, r')) :
    x = r'.row ∧ (r' = r ∨ Change config r
        ⟨.warned, at_, { r.row with warningEmittedAt := some at_ }⟩ r') ∧
      r'.row.state = .running ∧ r'.row.lastCalculatedAt = r.row.lastCalculatedAt ∧
      r'.hasKey .breach = r.hasKey .breach := by
  unfold warning at h
  rcases recordGuard_ok h with ⟨_, rfl, rfl⟩ | ⟨hkey, h⟩
  · exact ⟨rfl, Or.inl rfl, hstate, rfl, rfl⟩
  · rw [Transaction.bind_eq_ok] at h
    obtain ⟨saved, r₁, hsave, h⟩ := h
    obtain ⟨_, rfl, rfl, hchecks⟩ := save_ok hsave
    rw [Transaction.bind_eq_ok] at h
    obtain ⟨_, r₂, hemit, h⟩ := h
    obtain rfl := emitOutbox_ok hemit
    obtain ⟨rfl, rfl⟩ := Transaction.pure_eq_ok.mp h
    refine ⟨SlaRecord.emit_row.symm, Or.inr (.warned hstate hnone hgoal hkey rfl hchecks),
      ?_, ?_, ?_⟩
    · rw [SlaRecord.emit_row]
      exact hstate
    · rw [SlaRecord.emit_row]
      rfl
    · rw [SlaRecord.hasKey_emit, SlaRecord.hasKey_put, SlaRecord.hasKey_addEvent]
      simp

/-- The labels of the due scan. -/
def DueWrite (dueAt : Instant) (w : Write) : Prop :=
  (w.kind = .advanced ∨ w.kind = .warned ∨ w.kind = .breached) ∧ w.at_ = dueAt

/-- **One row of the due scan.** -/
theorem dueRow_ok {dueAt : Instant} {u : Unit} (hkept : BreachKept r)
    (hstate : r.row.state = .running) (h : (dueRow config dueAt r.row).run r = .ok (u, r')) :
    Writes config (DueWrite dueAt) r r' := by
  unfold dueRow at h
  rw [Transaction.bind_eq_ok] at h
  obtain ⟨advanced, r₁, hadvance, h⟩ := h
  obtain ⟨rfl, hstate₁, hlast₁, hkeys₁, hadvanced⟩ := advance_ok hstate hadvance
  have hwrites₁ : Writes config (DueWrite dueAt) r r₁ := by
    rcases hadvanced with ⟨rfl, _⟩ | ⟨current, hchange⟩
    · exact .nothing
    · exact .one hchange ⟨Or.inl rfl, rfl⟩
  rw [Transaction.bind_eq_ok] at h
  obtain ⟨current, r₂, hwarning, h⟩ := h
  have hwarned : current = r₂.row ∧ Writes config (DueWrite dueAt) r₁ r₂ ∧
      r₂.row.state = .running ∧ r₂.row.lastCalculatedAt = r₁.row.lastCalculatedAt ∧
      r₂.hasKey .breach = r₁.hasKey .breach := by
    unfold warnIfDue at hwarning
    split at hwarning
    · rename_i hdue
      have hgoal : ∃ w ∈ r₁.row.goal.warningSeconds, r₁.row.remainingWorkingSeconds ≤ w := by
        obtain ⟨w, hw, hle⟩ := (Option.any_eq_true _ _).mp hdue.2
        exact ⟨w, hw, of_decide_eq_true hle⟩
      obtain ⟨rfl, hchange, hrest⟩ := warning_ok hstate₁ hdue.1 hgoal hwarning
      refine ⟨rfl, ?_, hrest⟩
      rcases hchange with rfl | hchange
      · exact .nothing
      · exact .one hchange ⟨Or.inr (Or.inl rfl), rfl⟩
    · obtain ⟨rfl, rfl⟩ := Transaction.pure_eq_ok.mp hwarning
      exact ⟨rfl, .nothing, hstate₁, rfl, rfl⟩
  obtain ⟨rfl, hwrites₂, hstate₂, hlast₂, hkey₂⟩ := hwarned
  split at h
  · rename_i hover
    rw [Transaction.bind_eq_ok] at h
    obtain ⟨_, r₃, hbreach, h⟩ := h
    obtain ⟨_, rfl⟩ := Transaction.pure_eq_ok.mp h
    have hkept₂ : BreachKept r₂ := by
      intro hkey
      rw [hkey₂, hkeys₁, hkept.fresh (by rw [hstate]; decide)] at hkey
      cases hkey
    have hstill : calculated config r₂.row dueAt = .ok r₂.row :=
      calculated_still (Or.inr (hlast₂ ▸ hlast₁))
    obtain ⟨hbreached, _⟩ := breach_change hkept₂ hover.2 hstill hover.1 hbreach
    exact (hwrites₁.append hwrites₂).append (.one hbreached ⟨Or.inr (Or.inr rfl), rfl⟩)
  · obtain ⟨_, rfl⟩ := Transaction.pure_eq_ok.mp h
    exact hwrites₁.append hwrites₂

/-! ## 5. The start -/

/-- The labels of a start: `stamp` is the ticket's creation or, for a metric that is
    already met, the time it was met at. -/
def StartWrite (ticket : TicketFacts) (stamp : Instant) (w : Write) : Prop :=
  w.kind = .noted ∧ w.at_ = ticket.createdAt ∨
    w.at_ = stamp ∧
      (w.kind = .paused ∧ stamp = ticket.createdAt ∧ 0 < w.sla.remainingWorkingSeconds ∨
        (w.kind = .breached ∨ w.kind = .stopped) ∧
          (ticket.firstResponseAt = some stamp ∨ ticket.resolvedAt = some stamp))

/-- **The row just created.** -/
theorem startRow_ok {ticket : TicketFacts} {event : SlaInputEvent} {u : Unit}
    (hkept : BreachKept r) (hleft : 0 < r.row.remainingWorkingSeconds)
    (hlast : r.row.lastCalculatedAt = ticket.createdAt)
    (h : (startRow config ticket event r.row).run r = .ok (u, r')) :
    ∃ stamp, Writes config (StartWrite ticket stamp) r r' := by
  unfold startRow at h
  dsimp only at h
  rw [Transaction.bind_eq_ok] at h
  obtain ⟨recorded, r₁, hrecord, h⟩ := h
  have hrow : r₁.row = r.row := by
    rw [recordEvent_once hrecord, SlaRecord.recordOnce_row]
  have hwrites₁ : ∀ {stamp}, Writes config (StartWrite ticket stamp) r r₁ := by
    rcases recordEvent_ok hrecord with ⟨_, _, rfl⟩ | ⟨hkey, _, rfl⟩
    · exact .nothing
    · exact .one (.noted rfl ⟨_, rfl⟩ hkey) (Or.inl ⟨rfl, rfl⟩)
  have hkept₁ : BreachKept r₁ := by
    intro hkey
    rw [hrow]
    apply hkept
    rcases recordEvent_ok hrecord with ⟨_, _, rfl⟩ | ⟨_, _, rfl⟩
    · exact hkey
    · rw [SlaRecord.hasKey_addEvent] at hkey
      simpa using hkey
  rw [← hrow] at h hleft hlast
  split at h
  · rename_i respondedAt _ hresponded
    rw [Transaction.bind_eq_ok] at h
    obtain ⟨_, r₂, hcomplete, h⟩ := h
    obtain ⟨_, rfl⟩ := Transaction.pure_eq_ok.mp h
    refine ⟨respondedAt, hwrites₁.append ((complete_ok hkept₁ hcomplete).writes.mono ?_)⟩
    exact fun w hw => Or.inr ⟨hw.2.2, Or.inr ⟨hw.2.1, Or.inl hresponded⟩⟩
  · rename_i resolvedAt _ hresolved
    rw [Transaction.bind_eq_ok] at h
    obtain ⟨_, r₂, hcomplete, h⟩ := h
    obtain ⟨_, rfl⟩ := Transaction.pure_eq_ok.mp h
    refine ⟨resolvedAt, hwrites₁.append ((complete_ok hkept₁ hcomplete).writes.mono ?_)⟩
    exact fun w hw => Or.inr ⟨hw.2.2, Or.inr ⟨hw.2.1, Or.inr hresolved⟩⟩
  · rw [Transaction.lift_bind_eq_ok] at h
    obtain ⟨statuses, _, h⟩ := h
    split at h
    · rw [Transaction.bind_eq_ok] at h
      obtain ⟨_, r₂, hpause, h⟩ := h
      obtain ⟨_, rfl⟩ := Transaction.pure_eq_ok.mp h
      refine ⟨ticket.createdAt, hwrites₁.append ((pause_ok hpause).writes.mono fun w hw => ?_)⟩
      refine Or.inr ⟨hw.2.2.1, Or.inl ⟨hw.2.1, rfl, ?_⟩⟩
      obtain ⟨_, _, _, _, current, hcurrent, hsla⟩ := hw
      rw [calculated_still (Or.inr (Int.le_of_eq hlast.symm))] at hcurrent
      rw [hsla, ← Except.ok.inj hcurrent]
      exact hleft
    · obtain ⟨_, rfl⟩ := Transaction.pure_eq_ok.mp h
      exact ⟨ticket.createdAt, hwrites₁⟩

end Helpdesk.Sla
