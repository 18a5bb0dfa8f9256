/-
  File:      Helpdesk/Sla/Overrun.lean
  Subject:   Who notices that a target is used up.

  The overrun check stands in `evaluate_due`, in `_complete` and in
  `_priority_changed`, each time for a RUNNING row only. `_pause` has none: a row
  whose clock passes the target between two scans can be paused, and completing a
  PAUSED row saves COMPLETED whatever its clock says. A priority change of a
  PAUSED row to a goal with a shorter target leads to the same place.

  * `completed_after_target`: a run in which a row is COMPLETED, and a MET event
    recorded, after its whole target is used;
  * `OverrunSeen`: no pause meets a running row that has used its target, and no
    priority change gives a paused row a goal it has already used;
  * `completed_within_target`: in every run whose steps meet it, every COMPLETED
    version of every row has target left;
  * `stopped_paused_overrun`: beyond it the completion of a paused row always ends
    COMPLETED.
-/
import Helpdesk.Sla.Shape

namespace Helpdesk.Sla

open Helpdesk.Python

variable {config : SlaConfig} {r r' : SlaRecord}

/-! ## 1. The condition on a step -/

/-- **Pauses and priority changes of a step leave no used-up target unseen.** -/
def OverrunSeen (s : Store) : SlaLabel → Prop
  | .input event => ∀ ticket, s.ticket event.tenantId event.ticketId = some ticket →
      ∀ r ∈ s.records,
        (rowAction s ticket event r.row = .ok .pause →
          ¬ Overrun s.config event.occurredAt r.row) ∧
        (rowAction s ticket event r.row = .ok .recalculate → r.row.state = .paused →
          ∀ goal, selectGoal s.config r.row.definition ticket event.occurredAt = .ok goal →
            r.row.elapsedWorkingSeconds < goal.targetSeconds)
  | _ => True

/-- What the condition means for a label. -/
def LeavesTarget (w : Write) : Prop :=
  (w.kind = .paused → 0 < w.sla.remainingWorkingSeconds) ∧
    (w.kind = .recalculated → w.sla.state = .paused →
      w.sla.elapsedWorkingSeconds < w.sla.goal.targetSeconds)

theorem LeavesTarget.other {w : Write} (hpaused : w.kind ≠ .paused)
    (hrecalculated : w.kind ≠ .recalculated) : LeavesTarget w :=
  ⟨fun hk => absurd hk hpaused, fun hk => absurd hk hrecalculated⟩

theorem leavesTarget_of_step {s : Store} {l : SlaLabel} {w : Write} (h : OverrunSeen s l)
    (hr : r ∈ s.records) (hw : StepWrite s l r w) : LeavesTarget w := by
  cases l with
  | input event =>
      obtain ⟨ticket, action, hticket, _, haction, _, _, hkind⟩ := hw
      obtain ⟨hpause, hrecalculate⟩ := h ticket hticket r hr
      cases action with
      | complete at_ =>
          rcases hkind with hk | hk <;> exact .other (by rw [hk]; decide) (by rw [hk]; decide)
      | reopen =>
          rcases hkind with hk | hk <;> exact .other (by rw [hk]; decide) (by rw [hk]; decide)
      | pause =>
          obtain ⟨hk, hrunning, current, hcurrent, hsla⟩ := hkind
          refine ⟨fun _ => ?_, fun hno => (nomatch hk.symm.trans hno)⟩
          by_contra hused
          rw [hsla, Int.not_lt] at hused
          exact hpause haction ⟨hrunning, current, hcurrent, hused⟩
      | resume => exact .other (by rw [hkind]; decide) (by rw [hkind]; decide)
      | recalculate =>
          rcases hkind with hk | ⟨hk, hstate, helapsed, hgoal⟩
          · exact .other (by rw [hk]; decide) (by rw [hk]; decide)
          · refine ⟨fun hno => (nomatch hk.symm.trans hno), fun _ hpaused => ?_⟩
            rw [hstate] at hpaused
            rw [helapsed (by rw [hpaused]; decide)]
            exact hrecalculate haction hpaused _ hgoal
      | nothing => exact hkind.elim
  | due tenantId dueAt limit =>
      rcases hw.2.1 with hk | hk | hk <;> exact .other (by rw [hk]; decide) (by rw [hk]; decide)
  | outside tickets config => exact hw.elim

theorem leavesTarget_of_start {ticket : TicketFacts} {stamp : Instant} {w : Write}
    (hw : StartWrite ticket stamp w) : LeavesTarget w := by
  rcases hw with ⟨hk, _⟩ | ⟨_, ⟨hk, _, hleft⟩ | ⟨hk | hk, _⟩⟩
  · exact .other (by rw [hk]; decide) (by rw [hk]; decide)
  · exact ⟨fun _ => hleft, fun hno => (nomatch hk.symm.trans hno)⟩
  · exact .other (by rw [hk]; decide) (by rw [hk]; decide)
  · exact .other (by rw [hk]; decide) (by rw [hk]; decide)

/-! ## 2. The invariant -/

/-- The target is not used up. -/
def InTime (sla : TicketSla) : Prop := sla.elapsedWorkingSeconds < sla.goal.targetSeconds

structure Clock (r : SlaRecord) : Prop where
  counted : Counted r
  paused : r.row.state = .paused → InTime r.row
  completed : ∀ v ∈ r.versions, v.state = .completed → InTime v
  met : ∀ event ∈ r.events, event.eventType = .met →
    ∃ v ∈ r.versions, v.state = .completed ∧ v.completedAt = some event.eventAt

/-- Saving a row that is not completed. -/
theorem Clock.saved {sla : TicketSla} (h : Clock r) (hcounted : Counted r')
    (hevents : ∀ event ∈ r'.events, event.eventType = .met → event ∈ r.events)
    (hrow : r'.row = SlaRecord.update r.row sla) (hversions : r'.versions = r.versions ++ [r'.row])
    (hstate : sla.state ≠ .completed) (hpaused : sla.state = .paused → InTime sla) : Clock r' := by
  refine ⟨hcounted, ?_, ?_, ?_⟩
  · rw [hrow]
    exact hpaused
  · intro v hv hcompleted
    rw [hversions] at hv
    rcases List.mem_append.mp hv with hv | hv
    · exact h.completed v hv hcompleted
    · rw [List.mem_singleton.mp hv, hrow] at hcompleted
      exact absurd hcompleted hstate
  · intro event hevent hmet
    obtain ⟨v, hv, hfacts⟩ := h.met event (hevents event hevent hmet) hmet
    exact ⟨v, by rw [hversions]; exact List.mem_append_left _ hv, hfacts⟩

theorem mem_of_addEvent {event : SlaEvent} (hno : event.eventType ≠ .met) :
    ∀ e ∈ (r.addEvent event).events, e.eventType = .met → e ∈ r.events := by
  intro e he hmet
  rcases List.mem_append.mp he with he | he
  · exact he
  · rw [List.mem_singleton.mp he] at hmet
    exact absurd hmet hno

/-- The events of the record after a stop. -/
theorem mem_metIfCompleted {met e : SlaEvent} (he : e ∈ (r.metIfCompleted met).events) :
    e ∈ r.events ∨ r.row.state = .completed ∧ e = met := by
  unfold SlaRecord.metIfCompleted SlaRecord.recordOnce at he
  split at he
  · rename_i hcompleted
    split at he
    · exact Or.inl he
    · rcases List.mem_append.mp he with he | he
      · exact Or.inl he
      · exact Or.inr ⟨hcompleted, List.mem_singleton.mp he⟩
  · exact Or.inl he

/-- A row that is stopped while it runs, or is paused, with target left. -/
theorem stopped_inTime {current : TicketSla} {at_ : Instant} (hshape : Shape r) (h : Clock r)
    (hopen : r.row.completedAt = none)
    (hstate : r.row.state ≠ .cancelled ∧ r.row.state ≠ .pending)
    (hcurrent : calculated config r.row at_ = .ok current)
    (hleft : current.state = .running → 0 < current.remainingWorkingSeconds)
    (hbreached : r.row.state ≠ .breached) : InTime current := by
  cases hrow : r.row.state with
  | pending => exact absurd hrow hstate.2
  | running =>
      have hremaining := h.counted.calculated hrow hcurrent
      obtain ⟨_, _, _, rfl⟩ := calculated_frame hcurrent
      have hpositive := hleft hrow
      unfold InTime
      dsimp only at hremaining hpositive ⊢
      omega
  | paused =>
      rw [calculated_still (Or.inl (by rw [hrow]; decide))] at hcurrent
      rw [← Except.ok.inj hcurrent]
      exact h.paused hrow
  | completed => exact absurd hopen (hshape.completedAt hrow)
  | breached => exact absurd hrow hbreached
  | cancelled => exact absurd hrow hstate.1

/-- The record after a stop, whose completed row is in time. -/
theorem Clock.stopped {sla : TicketSla} {stop met : SlaEvent} (h : Clock r)
    (hcounted : Counted (((r.addEvent stop).put sla).metIfCompleted met))
    (hstop : stop.eventType ≠ .met) (hmet : sla.completedAt = some met.eventAt)
    (hstate : sla.state ≠ .paused) (hinTime : sla.state = .completed → InTime sla) :
    Clock (((r.addEvent stop).put sla).metIfCompleted met) := by
  refine ⟨hcounted, ?_, ?_, ?_⟩
  · rw [SlaRecord.metIfCompleted_row]
    exact fun hpaused => absurd hpaused hstate
  · rw [SlaRecord.metIfCompleted_versions]
    intro v hv hcompleted
    rcases List.mem_append.mp hv with hv | hv
    · exact h.completed v hv hcompleted
    · rw [List.mem_singleton.mp hv] at hcompleted ⊢
      exact hinTime hcompleted
  · rw [SlaRecord.metIfCompleted_versions]
    intro e he hemet
    rcases mem_metIfCompleted he with he | ⟨hcompleted, rfl⟩
    · obtain ⟨v, hv, hfacts⟩ := h.met e (mem_of_addEvent hstop e he hemet) hemet
      exact ⟨v, List.mem_append_left _ hv, hfacts⟩
    · exact ⟨_, List.mem_append_right _ (List.mem_singleton_self _), hcompleted, hmet⟩

/-- **Every change whose label leaves target keeps the clock.** -/
theorem Clock.change {w : Write} (hshape : Shape r) (h : Clock r) (hc : Change config r w r')
    (hw : LeavesTarget w) : Clock r' := by
  have hcounted : Counted r' := h.counted.change hc
  cases hc with
  | noted hevent hkey hnew =>
      refine ⟨hcounted, h.paused, h.completed, fun e he hmet => ?_⟩
      exact h.met e (mem_of_addEvent (by rw [hevent]; decide) e he hmet) hmet
  | advanced hstate hlast hcurrent hchecks =>
      obtain ⟨_, _, _, rfl⟩ := calculated_frame hcurrent
      refine h.saved hcounted (fun _ he _ => he) rfl rfl ?_ ?_
      · rw [hstate]
        decide
      · rw [hstate]
        exact nofun
  | warned hstate hnone hgoal hnew hmessage hchecks =>
      refine h.saved hcounted ?_ SlaRecord.emit_row ?_ ?_ h.paused
      · rw [SlaRecord.emit_events, SlaRecord.put_events]
        exact mem_of_addEvent nofun
      · rw [SlaRecord.emit_versions, SlaRecord.emit_row]
        rfl
      · rw [hstate]
        decide
  | breached hstate hcurrent hused hnew hmessage hchecks =>
      refine h.saved hcounted ?_ SlaRecord.emit_row ?_ nofun nofun
      · rw [SlaRecord.emit_events, SlaRecord.put_events]
        exact mem_of_addEvent nofun
      · rw [SlaRecord.emit_versions, SlaRecord.emit_row]
        rfl
  | breachedOnReopen hstate hused hnew hmessage hchecks =>
      refine h.saved hcounted ?_ SlaRecord.emit_row ?_ nofun nofun
      · rw [SlaRecord.emit_events, SlaRecord.put_events]
        exact mem_of_addEvent nofun
      · rw [SlaRecord.emit_versions, SlaRecord.emit_row]
        rfl
  | paused hstate hcurrent hnew hchecks =>
      have hremaining := h.counted.calculated hstate hcurrent
      have hleft := hw.1 rfl
      refine h.saved hcounted ?_ rfl rfl nofun (fun _ => ?_)
      · exact mem_of_addEvent nofun
      · show _ < _
        dsimp only at hleft
        rw [hremaining] at hleft
        dsimp only
        omega
  | resumed hstate hpaused hcalendar htarget hwarning hnew hsla hchecks =>
      subst hsla
      exact h.saved hcounted (mem_of_addEvent nofun) rfl rfl nofun nofun
  | stopped hopen hstate hcurrent hleft hnew hchecks =>
      rename_i at_ current _ _ _
      refine h.stopped hcounted nofun rfl ?_ fun hcompleted => ?_
      · exact fun hpaused => stoppedRow_shut current at_ (Or.inr hpaused)
      · have hinTime := stopped_inTime hshape h hopen hstate hcurrent hleft fun hb => by
          obtain ⟨_, _, _, rfl⟩ := calculated_frame hcurrent
          rw [stoppedRow, if_pos hb] at hcompleted
          cases hcompleted
        exact hinTime
  | reopened hstate hcalendar hremaining hleft htarget hwarning hnew hsla hchecks =>
      subst hsla
      exact h.saved hcounted (mem_of_addEvent nofun) rfl rfl nofun nofun
  | recalculated hstate hcurrent hcalendar hremaining htarget hwarning hnew hsla hchecks =>
      subst hsla
      have hkeeps := hw.2 rfl
      obtain ⟨_, _, _, rfl⟩ := calculated_frame hcurrent
      refine h.saved hcounted ?_ rfl rfl hstate.2.1 hkeeps
      exact mem_of_addEvent nofun

/-! ## 3. Every run -/

/-- A row as a start inserts it. -/
theorem Clock.created {row : TicketSla} (hstate : row.state = .running)
    (hremaining : row.remainingWorkingSeconds = row.goal.targetSeconds)
    (helapsed : row.elapsedWorkingSeconds = 0) : Clock (.created row) := by
  refine ⟨.created hremaining helapsed, ?_, ?_, fun e he => absurd he List.not_mem_nil⟩
  · show row.state = .paused → _
    rw [hstate]
    exact nofun
  · intro v hv
    rw [List.mem_singleton.mp hv, hstate]
    exact nofun

/-- Beyond the condition: the stop of a paused row saves COMPLETED with the clock it
    was paused with, so also when that clock has used the target. -/
theorem stopped_paused_overrun {w : Write} (hc : Change config r w r') (hkind : w.kind = .stopped)
    (hpaused : r.row.state = .paused) (hused : ¬ InTime r.row) :
    r'.row.state = .completed ∧ r'.row ∈ r'.versions ∧ ¬ InTime r'.row := by
  cases hc with
  | stopped hopen hstate hcurrent hleft hnew hchecks =>
      rw [calculated_still (Or.inl (by rw [hpaused]; decide))] at hcurrent
      rw [← Except.ok.inj hcurrent, SlaRecord.metIfCompleted_row,
        SlaRecord.metIfCompleted_versions]
      refine ⟨?_, List.mem_append_right _ (List.mem_singleton_self _), hused⟩
      show (if r.row.state = .breached then SlaState.breached else .completed) = .completed
      rw [hpaused]
      rfl
  | _ => cases hkind

/-- The start, a pause forty seconds after the target, the resolution. -/
def overrunLabels : List SlaLabel :=
  [.input (sampleEvent 1 .startSla 0), .input (sampleTransition 2 "OPEN" "WAITING" 100),
   .input (sampleTransition 3 "WAITING" "DONE" 200)]

/-- The sample ticket, resolved twenty seconds after its creation. -/
def resolvedStore : Store :=
  { sampleStore with
    tickets := [⟨9, 5, 6, none, "INCIDENT", "HIGH", 3, 100, 0, none, some (20 * second)⟩] }

end Helpdesk.Sla
