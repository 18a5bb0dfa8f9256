/-
  File:      Helpdesk/Sla/Shape.lean
  Subject:   The shape of an SLA row in every run.

  * `Shape`: the state of a row, its timestamps, its breach event and its breach
    message agree, and a breached row was never anything else afterwards;
  * `Shape.change`: every change of a record keeps it;
  * `breached_iff_recorded`: it holds of every row in every run.
-/
import Helpdesk.Sla.Runs

namespace Helpdesk.Sla

open Helpdesk.Python

variable {config : SlaConfig} {r r' : SlaRecord}

def isBreachEvent (event : SlaEvent) : Bool := event.eventType = .breached

def isBreachMessage (message : SlaOutboxMessage) : Bool := message.eventType = .slaBreached

structure Shape (r : SlaRecord) : Prop where
  breachEvents : r.events.countP isBreachEvent = if r.row.state = .breached then 1 else 0
  breachMessages : r.outbox.countP isBreachMessage = if r.row.state = .breached then 1 else 0
  breachedAt : r.row.breachedAt ≠ none ↔ r.row.state = .breached
  pausedAt : r.row.pausedAt ≠ none ↔ r.row.state = .paused
  completedAt : r.row.state = .completed → r.row.completedAt ≠ none
  open_ : r.row.state = .running ∨ r.row.state = .paused → r.row.completedAt = none
  history : r.versions.Pairwise fun v w => v.state = .breached → w.state = .breached
  final : ∀ v ∈ r.versions, v.state = .breached → r.row.state = .breached
  last : r.versions.getLast? = some r.row

/-- A row as a start inserts it. -/
theorem Shape.created {row : TicketSla} (hstate : row.state = .running)
    (hbreached : row.breachedAt = none) (hpaused : row.pausedAt = none)
    (hcompleted : row.completedAt = none) : Shape (.created row) where
  breachEvents := by rw [SlaRecord.created, hstate]; rfl
  breachMessages := by rw [SlaRecord.created, hstate]; rfl
  breachedAt := by simp [SlaRecord.created, hstate, hbreached]
  pausedAt := by simp [SlaRecord.created, hstate, hpaused]
  completedAt := by simp [SlaRecord.created, hstate]
  open_ := fun _ => hcompleted
  history := List.pairwise_singleton _ _
  final := fun v hv hb => by rw [← List.mem_singleton.mp hv]; exact hb
  last := rfl

/-- **Recording an event that is no breach** and saving a row keeps the shape, when
    the saved row has it. -/
theorem Shape.saved {sla : TicketSla} (h : Shape r) (hevents : r'.events.countP isBreachEvent =
      r.events.countP isBreachEvent) (houtbox : r'.outbox.countP isBreachMessage =
      r.outbox.countP isBreachMessage) (hrow : r'.row = SlaRecord.update r.row sla)
    (hversions : r'.versions = r.versions ++ [r'.row])
    (hstate : sla.state = .breached ↔ r.row.state = .breached)
    (hbreachedAt : sla.breachedAt = r.row.breachedAt)
    (hpausedAt : sla.pausedAt ≠ none ↔ sla.state = .paused)
    (hcompletedAt : sla.state = .completed → sla.completedAt ≠ none)
    (hopen : sla.state = .running ∨ sla.state = .paused → sla.completedAt = none) :
    Shape r' := by
  have hstate' : r'.row.state = .breached ↔ r.row.state = .breached := by
    rw [hrow]
    exact hstate
  refine ⟨?_, ?_, ?_, ?_, ?_, ?_, ?_, ?_, ?_⟩
  · rw [hevents, h.breachEvents]
    simp only [hstate']
  · rw [houtbox, h.breachMessages]
    simp only [hstate']
  · rw [hstate', ← h.breachedAt, hrow]
    show sla.breachedAt ≠ none ↔ _
    rw [hbreachedAt]
  · rw [hrow]
    exact hpausedAt
  · rw [hrow]
    exact hcompletedAt
  · rw [hrow]
    exact hopen
  · rw [hversions, List.pairwise_append]
    refine ⟨h.history, List.pairwise_singleton _ _, fun v hv w hw hb => ?_⟩
    rw [List.mem_singleton.mp hw]
    exact hstate'.mpr (h.final v hv hb)
  · intro v hv hb
    rw [hversions] at hv
    rcases List.mem_append.mp hv with hv | hv
    · exact hstate'.mpr (h.final v hv hb)
    · rw [← List.mem_singleton.mp hv]
      exact hb
  · rw [hversions, List.getLast?_concat]

/-- A message that is no breach does not count. -/
theorem emit_countP {message : SlaOutboxMessage} (h : message.eventType ≠ .slaBreached) :
    (r.emit message).outbox.countP isBreachMessage = r.outbox.countP isBreachMessage := by
  have hno : isBreachMessage message = false := decide_eq_false h
  unfold SlaRecord.emit
  split
  · rfl
  · rw [SlaRecord.addMessage, List.countP_append, List.countP_singleton, hno]
    rfl

/-- The first breach message is not suppressed. -/
theorem emit_first_breach {message : SlaOutboxMessage} (h : message.eventType = .slaBreached)
    (hnone : r.outbox.countP isBreachMessage = 0) :
    (r.emit message).outbox.countP isBreachMessage = 1 := by
  have hyes : isBreachMessage message = true := decide_eq_true h
  unfold SlaRecord.emit
  split
  · rename_i hany
    obtain ⟨m, hm, hsame⟩ := List.any_eq_true.mp hany
    rw [decide_eq_true_eq] at hsame
    have hbreach : isBreachMessage m = true := decide_eq_true (hsame.2.1.trans h)
    exact absurd hbreach (List.countP_eq_zero.mp hnone m hm)
  · rw [SlaRecord.addMessage, List.countP_append, List.countP_singleton, hyes, hnone]
    rfl

/-- **A breach** of a row that is not breached, in memory `sla`. -/
theorem Shape.breach {sla : TicketSla} {at_ : Instant} {data : List (String × Json)}
    {message : SlaOutboxMessage} (h : Shape r) (hstate : r.row.state ≠ .breached)
    (hpausedAt : sla.pausedAt = none) (hmessage : message.eventType = .slaBreached) :
    Shape (((r.addEvent ⟨.breached, at_, .breach, data⟩).put (breachedRow sla at_)).emit
      message) := by
  have hevents := h.breachEvents
  have hmessages := h.breachMessages
  rw [if_neg hstate] at hevents hmessages
  refine ⟨?_, ?_, ?_, ?_, ?_, ?_, ?_, ?_, ?_⟩
  · rw [SlaRecord.emit_row, SlaRecord.emit_events, SlaRecord.put_events,
      SlaRecord.addEvent_events, List.countP_append, List.countP_singleton, hevents]
    rfl
  · rw [SlaRecord.emit_row, emit_first_breach hmessage]
    · rfl
    · exact hmessages
  · rw [SlaRecord.emit_row]
    exact ⟨fun _ => rfl, fun _ => Option.some_ne_none _⟩
  · rw [SlaRecord.emit_row]
    show sla.pausedAt ≠ none ↔ SlaState.breached = .paused
    rw [hpausedAt]
    exact ⟨fun hno => absurd rfl hno, nofun⟩
  · rw [SlaRecord.emit_row]
    intro hno
    cases hno
  · rw [SlaRecord.emit_row]
    rintro (hno | hno) <;> cases hno
  · rw [SlaRecord.emit_versions, SlaRecord.put_versions, List.pairwise_append]
    refine ⟨h.history, List.pairwise_singleton _ _, fun v _ w hw _ => ?_⟩
    rw [List.mem_singleton.mp hw]
    rfl
  · rw [SlaRecord.emit_row]
    exact fun _ _ _ => rfl
  · rw [SlaRecord.emit_versions, SlaRecord.emit_row, SlaRecord.put_versions,
      List.getLast?_concat]
    rfl

theorem countP_addEvent {event : SlaEvent} (h : event.eventType ≠ .breached) :
    (r.addEvent event).events.countP isBreachEvent = r.events.countP isBreachEvent := by
  have hno : isBreachEvent event = false := decide_eq_false h
  rw [SlaRecord.addEvent_events, List.countP_append, List.countP_singleton, hno]
  rfl

theorem countP_metIfCompleted {met : SlaEvent} (h : met.eventType ≠ .breached) :
    (r.metIfCompleted met).events.countP isBreachEvent = r.events.countP isBreachEvent := by
  unfold SlaRecord.metIfCompleted SlaRecord.recordOnce
  split
  · split
    · rfl
    · exact countP_addEvent h
  · rfl

/-- **Every change keeps the shape.** -/
theorem Shape.change {w : Write} (h : Shape r) (hc : Change config r w r') : Shape r' := by
  cases hc with
  | noted hevent hkey hnew =>
      rename_i event
      refine ⟨?_, h.breachMessages, h.breachedAt, h.pausedAt, h.completedAt, h.open_, h.history,
        h.final, h.last⟩
      rw [countP_addEvent (by rw [hevent]; decide)]
      exact h.breachEvents
  | advanced hstate hlast hcurrent hchecks =>
      obtain ⟨_, _, _, rfl⟩ := calculated_frame hcurrent
      exact h.saved rfl rfl rfl rfl Iff.rfl rfl h.pausedAt h.completedAt h.open_
  | warned hstate hnone hgoal hnew hmessage hchecks =>
      refine h.saved ?_ ?_ SlaRecord.emit_row ?_ Iff.rfl rfl h.pausedAt h.completedAt h.open_
      · rw [SlaRecord.emit_events, SlaRecord.put_events]
        exact countP_addEvent nofun
      · rw [emit_countP (by rw [hmessage]; decide)]
        rfl
      · rw [SlaRecord.emit_versions, SlaRecord.emit_row]
        rfl
  | breached hstate hcurrent hused hnew hmessage hchecks =>
      obtain ⟨_, _, _, rfl⟩ := calculated_frame hcurrent
      have hrest : r.row.pausedAt = none := by
        by_contra hno
        rw [h.pausedAt.mp hno] at hstate
        cases hstate
      exact h.breach (by rw [hstate]; decide) hrest hmessage
  | breachedOnReopen hstate hused hnew hmessage hchecks =>
      have hrest : r.row.pausedAt = none := by
        by_contra hno
        rw [h.pausedAt.mp hno] at hstate
        cases hstate
      exact h.breach (by rw [hstate]; decide) hrest hmessage
  | paused hstate hcurrent hnew hchecks =>
      obtain ⟨_, _, _, rfl⟩ := calculated_frame hcurrent
      refine h.saved ?_ rfl rfl rfl ?_ rfl ?_ ?_ ?_
      · exact countP_addEvent nofun
      · rw [hstate]
        exact ⟨nofun, nofun⟩
      · exact ⟨fun _ => rfl, fun _ => Option.some_ne_none _⟩
      · intro hno
        cases hno
      · exact fun _ => h.open_ (Or.inl hstate)
  | resumed hstate hpaused hcalendar htarget hwarning hnew hsla hchecks =>
      subst hsla
      refine h.saved ?_ rfl rfl rfl ?_ rfl ?_ ?_ ?_
      · exact countP_addEvent nofun
      · rw [hstate]
        exact ⟨nofun, nofun⟩
      · exact ⟨fun hno => absurd rfl hno, nofun⟩
      · intro hno
        cases hno
      · exact fun _ => h.open_ (Or.inr hstate)
  | stopped hopen hstate hcurrent hleft hnew hchecks =>
      obtain ⟨_, _, _, rfl⟩ := calculated_frame hcurrent
      refine h.saved ?_ ?_ SlaRecord.metIfCompleted_row ?_ ?_ rfl ?_ ?_ ?_
      · refine (countP_metIfCompleted ?_).trans (countP_addEvent ?_)
        · exact nofun
        · exact nofun
      · rw [SlaRecord.metIfCompleted_outbox]
        rfl
      · rw [SlaRecord.metIfCompleted_versions, SlaRecord.metIfCompleted_row]
        rfl
      · show (if r.row.state = .breached then SlaState.breached else .completed) = .breached ↔ _
        by_cases hb : r.row.state = .breached
        · simp [hb]
        · simp [hb]
      · show (none : Option Instant) ≠ none ↔
          (if r.row.state = .breached then SlaState.breached else .completed) = .paused
        by_cases hb : r.row.state = .breached
        · simp [hb]
        · simp [hb]
      · exact fun _ => Option.some_ne_none _
      · show (if r.row.state = .breached then SlaState.breached else .completed) = .running ∨
          (if r.row.state = .breached then SlaState.breached else .completed) = .paused → _
        by_cases hb : r.row.state = .breached
        · simp [hb]
        · simp [hb]
  | reopened hstate hcalendar hremaining hleft htarget hwarning hnew hsla hchecks =>
      subst hsla
      refine h.saved ?_ rfl rfl rfl ?_ rfl ?_ ?_ ?_
      · exact countP_addEvent nofun
      · rw [hstate]
        exact ⟨nofun, nofun⟩
      · show r.row.pausedAt ≠ none ↔ SlaState.running = .paused
        rw [h.pausedAt, hstate]
        exact ⟨nofun, nofun⟩
      · intro hno
        cases hno
      · exact fun _ => rfl
  | recalculated hstate hcurrent hcalendar hremaining htarget hwarning hnew hsla hchecks =>
      subst hsla
      obtain ⟨_, _, _, rfl⟩ := calculated_frame hcurrent
      refine h.saved ?_ rfl rfl rfl Iff.rfl rfl h.pausedAt h.completedAt h.open_
      exact countP_addEvent nofun

/-! ## What remains -/

/-- While a row is open, what remains is its target less the time elapsed. -/
def Counted (r : SlaRecord) : Prop :=
  r.row.state = .running ∨ r.row.state = .paused → r.row.remainingWorkingSeconds =
    max 0 (r.row.goal.targetSeconds - r.row.elapsedWorkingSeconds)

theorem Counted.created {row : TicketSla}
    (hremaining : row.remainingWorkingSeconds = row.goal.targetSeconds)
    (helapsed : row.elapsedWorkingSeconds = 0) : Counted (.created row) := by
  intro _
  have hpositive := row.goal.target_pos
  show row.remainingWorkingSeconds = max 0 (row.goal.targetSeconds - row.elapsedWorkingSeconds)
  omega

/-- The clock of a running row keeps `remaining` in step with `elapsed`. -/
theorem Counted.calculated {current : TicketSla} {at_ : Instant} (h : Counted r)
    (hstate : r.row.state = .running) (hcurrent : calculated config r.row at_ = .ok current) :
    current.remainingWorkingSeconds =
      max 0 (current.goal.targetSeconds - current.elapsedWorkingSeconds) := by
  rcases calculated_ok hcurrent with ⟨_, rfl⟩ | ⟨_, _, _, _, _, _, rfl⟩
  · exact h (Or.inl hstate)
  · rfl

theorem stoppedRow_shut (sla : TicketSla) (at_ : Instant) :
    ¬ ((stoppedRow sla at_).state = .running ∨ (stoppedRow sla at_).state = .paused) := by
  rcases stoppedRow_state sla at_ with hstate | hstate <;> rw [hstate] <;> decide

/-- **Every change keeps count.** -/
theorem Counted.change {w : Write} (h : Counted r) (hc : Change config r w r') : Counted r' := by
  cases hc with
  | noted => exact h
  | advanced hstate hlast hcurrent hchecks =>
      have hremaining := h.calculated hstate hcurrent
      exact fun _ => hremaining
  | warned =>
      unfold Counted
      rw [SlaRecord.emit_row]
      exact h
  | breached =>
      unfold Counted
      rw [SlaRecord.emit_row]
      exact nofun
  | breachedOnReopen =>
      unfold Counted
      rw [SlaRecord.emit_row]
      exact nofun
  | paused hstate hcurrent hnew hchecks =>
      have hremaining := h.calculated hstate hcurrent
      exact fun _ => hremaining
  | resumed hstate hpaused hcalendar htarget hwarning hnew hsla hchecks =>
      subst hsla
      exact fun _ => h (Or.inr hstate)
  | @stopped at_ current _ _ _ hopen hstate hcurrent hleft hnew hchecks =>
      unfold Counted
      rw [SlaRecord.metIfCompleted_row]
      exact fun hopen => absurd hopen (stoppedRow_shut current at_)
  | reopened hstate hcalendar hremaining hleft htarget hwarning hnew hsla hchecks =>
      subst hsla
      intro _
      show _ = max 0 (r.row.goal.targetSeconds - r.row.elapsedWorkingSeconds)
      dsimp only [SlaRecord.put_row, SlaRecord.update]
      omega
  | recalculated hstate hcurrent hcalendar hremaining htarget hwarning hnew hsla hchecks =>
      subst hsla
      exact fun _ => hremaining

/-! ## Every run -/

/-- Every row of every run has the shape. -/
theorem shape_of_run {s₀ s : Store} {ls : List SlaLabel} (hrun : Run SlaStep s₀ ls s)
    (h0 : s₀.records = []) : ∀ r ∈ s.records, Shape r := by
  have hguarded : Run (Guarded (fun _ _ => True) SlaStep) s₀ ls s :=
    hrun.mono fun _ _ _ hs => ⟨trivial, hs⟩
  intro r hr
  refine (records_invariant (I := fun _ r => Shape r) hguarded h0 ?_ ?_ ?_ r hr).2
  · exact fun _ hshape => hshape
  · intro s l r _ hcreates
    obtain ⟨_, _, _, _, _, _, _, _, _, hw⟩ := hcreates
    exact hw.invariant (.created rfl rfl rfl rfl) fun _ _ _ hshape hc _ => hshape.change hc
  · intro s l r r' _ _ hshape hw
    exact hw.invariant hshape fun _ _ _ hshape hc _ => hshape.change hc

/-- **A row is breached exactly if its one breach event was recorded, exactly if
    `breached_at` is set, and for good**: over any run of events, replays, scans and
    writes of other services, with any transactions rolled back. -/
theorem breached_iff_recorded {s₀ s : Store} {ls : List SlaLabel} (hrun : Run SlaStep s₀ ls s)
    (h0 : s₀.records = []) : ∀ r ∈ s.records,
      (r.events.countP (·.eventType = .breached) ≤ 1 ∧
        r.outbox.countP (·.eventType = .slaBreached) ≤ 1) ∧
      ((r.row.state = .breached ↔ ∃ event ∈ r.events, event.eventType = .breached) ∧
        (r.row.state = .breached ↔ r.row.breachedAt ≠ none)) ∧
      (r.versions.getLast? = some r.row ∧
        r.versions.Pairwise fun v w => v.state = .breached → w.state = .breached) ∧
      (r.row.state = .paused ↔ r.row.pausedAt ≠ none) ∧
      (r.row.state = .completed → r.row.completedAt ≠ none) ∧
      (r.row.state = .running → r.row.pausedAt = none ∧ r.row.completedAt = none) := by
  intro r hr
  have hshape := shape_of_run hrun h0 r hr
  have hevents : r.events.countP (·.eventType = .breached) =
      if r.row.state = .breached then 1 else 0 := hshape.breachEvents
  have hmessages : r.outbox.countP (·.eventType = .slaBreached) =
      if r.row.state = .breached then 1 else 0 := hshape.breachMessages
  refine ⟨⟨?_, ?_⟩, ⟨?_, hshape.breachedAt.symm⟩, ⟨hshape.last, hshape.history⟩,
    hshape.pausedAt.symm, hshape.completedAt, fun hrunning => ⟨?_, ?_⟩⟩
  · rw [hevents]
    split <;> decide
  · rw [hmessages]
    split <;> decide
  · constructor
    · intro hstate
      rw [if_pos hstate] at hevents
      obtain ⟨event, hevent, hbreached⟩ := List.countP_pos_iff.mp (hevents ▸ Nat.one_pos)
      exact ⟨event, hevent, of_decide_eq_true hbreached⟩
    · rintro ⟨event, hevent, hbreached⟩
      by_contra hno
      rw [if_neg hno, List.countP_eq_zero] at hevents
      exact hevents event hevent (decide_eq_true hbreached)
  · by_contra hno
    rw [hshape.pausedAt.mp hno] at hrunning
    cases hrunning
  · exact hshape.open_ (Or.inl hrunning)

/-- A sample run: the start, a pause, its end, a scan past the target. -/
def breachLabels : List SlaLabel :=
  [.input (sampleEvent 1 .startSla 0), .input (sampleTransition 2 "OPEN" "WAITING" 10),
   .input (sampleTransition 3 "WAITING" "OPEN" 20), .due 5 (100 * second) 10]

theorem breached_iff_recorded_sample :
    (execute Store.next sampleStore breachLabels).records.map (·.row.state) = [.breached] ∧
      ∀ r ∈ (execute Store.next sampleStore breachLabels).records,
        r.row.state = .breached ↔ ∃ event ∈ r.events, event.eventType = .breached :=
  ⟨by decide +kernel, fun r hr =>
    (breached_iff_recorded (sampleRun (by simp [breachLabels])) rfl r hr).2.1.1⟩

end Helpdesk.Sla
