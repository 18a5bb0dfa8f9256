/-
  File:      Helpdesk/Sla/Changes.lean
  Subject:   What the engine writes to one row.

  `Change config record write record'` is one write of the engine to a record:
  the guards under which an operation writes, the row it saves, the event it
  records and the message it emits. Every operation either leaves its record as
  it is, under a condition stated here, or makes one or two changes:

  * `pause_ok`, `resume_ok`, `complete_ok`, `reopen_ok`, `recalculate_ok`,
    `dueRow_ok`, `startRow_ok`: the inversion of each operation, with the exact
    condition under which it does nothing;
* `Writes`: a chain of changes whose labels meet a condition.

  No later proof unfolds an operation.
-/
import Helpdesk.Lib.Runs
import Helpdesk.Sla.Service

namespace Helpdesk.Sla

open Helpdesk.Python

variable {config : SlaConfig} {r r' : SlaRecord}

/-! ## 1. The repository's statements, taken apart -/

theorem SlaRecord.hasKey_iff {key : EventKey} :
    r.hasKey key = true ↔ ∃ event ∈ r.events, event.eventKey = key := by
  unfold SlaRecord.hasKey
  simp only [List.any_eq_true, decide_eq_true_eq]

/-- **An event is recorded once per key**, and otherwise nothing happens. -/
theorem recordEvent_ok {eventType : SlaEventType} {at_ : Instant} {key : EventKey}
    {data : List (String × Json)} {recorded : Bool}
    (h : (recordEvent eventType at_ key data).run r = .ok (recorded, r')) :
    (r.hasKey key = true ∧ recorded = false ∧ r' = r) ∨
      (r.hasKey key = false ∧ recorded = true ∧ r' = r.addEvent ⟨eventType, at_, key, data⟩) := by
  unfold recordEvent at h
  rw [Transaction.get_bind] at h
  split at h
  · rename_i hkey
    obtain ⟨rfl, rfl⟩ := Transaction.pure_eq_ok.mp h
    exact Or.inl ⟨hkey, rfl, rfl⟩
  · rename_i hkey
    rw [Transaction.guard_eq_ok, Transaction.set_bind, Transaction.pure_eq_ok] at h
    obtain ⟨_, rfl, rfl⟩ := h
    exact Or.inr ⟨Bool.eq_false_iff.mpr hkey, rfl, rfl⟩

/-- The guard `if not await record_event(...): return sla` and what follows it. -/
theorem recordGuard_ok {eventType : SlaEventType} {at_ : Instant} {key : EventKey}
    {data : List (String × Json)} {α : Type} {default_ a : α} {rest : RowTransaction α}
    (h : (do if !(← recordEvent eventType at_ key data) then return default_ else rest).run r =
      .ok (a, r')) :
    (r.hasKey key = true ∧ a = default_ ∧ r' = r) ∨
      (r.hasKey key = false ∧
        rest.run (r.addEvent ⟨eventType, at_, key, data⟩) = .ok (a, r')) := by
  rw [Transaction.bind_eq_ok] at h
  obtain ⟨recorded, s, hrecord, h⟩ := h
  rcases recordEvent_ok hrecord with ⟨hkey, rfl, rfl⟩ | ⟨hkey, rfl, rfl⟩
  · obtain ⟨rfl, rfl⟩ := Transaction.pure_eq_ok.mp h
    exact Or.inl ⟨hkey, rfl, rfl⟩
  · exact Or.inr ⟨hkey, h⟩

/-- **A save that succeeds** found the expected version and wrote the row, which
    meets the checks of the table. -/
theorem save_ok {sla saved : TicketSla} {expected : Nat}
    (h : (save sla expected).run r = .ok (saved, r')) :
    r.row.rowVersion = expected ∧ r' = r.put sla ∧ saved = r'.row ∧
      SlaRecord.temporalCheck r'.row = true ∧ SlaRecord.remainingCheck r'.row = true := by
  unfold save at h
  rw [Transaction.get_bind] at h
  rw [Transaction.guard_eq_ok, Transaction.guard_eq_ok, Transaction.guard_eq_ok,
    Transaction.set_bind, Transaction.pure_eq_ok] at h
  obtain ⟨hversion, htemporal, hremaining, rfl, rfl⟩ := h
  exact ⟨not_not.mp hversion, rfl, rfl, not_not.mp htemporal, not_not.mp hremaining⟩

theorem emitOutbox_ok {sla : TicketSla} {eventType : SlaOutboxType} {payload : List (String × Json)}
    {key : String} {u : Unit} (h : (emitOutbox sla eventType payload key).run r = .ok (u, r')) :
    r' = r.emit ⟨sla.tenantId, sla.ticketSlaId, eventType, payload, key⟩ :=
  (Transaction.modify_eq_ok.mp h).symm

/-- A row that does not run, or whose clock is at or past `at_`, keeps its clock. -/
theorem calculated_still {sla : TicketSla} {at_ : Instant}
    (h : sla.state ≠ .running ∨ at_ ≤ sla.lastCalculatedAt) :
    calculated config sla at_ = .ok sla := by
  unfold calculated
  rw [if_pos h]

/-- The clock of a row moves only while it runs and only forward. -/
theorem calculated_ok {sla current : TicketSla} {at_ : Instant}
    (h : calculated config sla at_ = .ok current) :
    ((sla.state ≠ .running ∨ at_ ≤ sla.lastCalculatedAt) ∧ current = sla) ∨
      (sla.state = .running ∧ sla.lastCalculatedAt < at_ ∧ ∃ calendar k,
        goalCalendar config sla.goal = .ok calendar ∧
        calendar.businessSecondsBetween sla.lastCalculatedAt at_ = .ok k ∧
        current = { sla with
          elapsedWorkingSeconds := sla.elapsedWorkingSeconds + k
          remainingWorkingSeconds := max 0 (sla.goal.targetSeconds - (sla.elapsedWorkingSeconds + k))
          lastCalculatedAt := at_ }) := by
  unfold calculated at h
  split at h
  · rename_i hstill
    cases h
    exact Or.inl ⟨hstill, rfl⟩
  · rename_i hmoves
    simp only [bind_eq_ok, pure_eq_ok] at h
    obtain ⟨calendar, hcalendar, k, hk, rfl⟩ := h
    have hrunning : sla.state = .running := by
      by_contra hne
      exact hmoves (Or.inl hne)
    have hlast : sla.lastCalculatedAt < at_ := by
      by_contra hle
      exact hmoves (Or.inr (Int.not_lt.mp hle))
    exact Or.inr ⟨hrunning, hlast, calendar, k, hcalendar, hk, rfl⟩

/-- Everything but the clock stays. -/
theorem calculated_frame {sla current : TicketSla} {at_ : Instant}
    (h : calculated config sla at_ = .ok current) :
    ∃ elapsed remaining last, current = { sla with
      elapsedWorkingSeconds := elapsed
      remainingWorkingSeconds := remaining
      lastCalculatedAt := last } := by
  rcases calculated_ok h with ⟨_, rfl⟩ | ⟨_, _, _, _, _, _, rfl⟩
  · exact ⟨_, _, _, rfl⟩
  · exact ⟨_, _, _, rfl⟩

/-! ## 2. Records -/

namespace SlaRecord

variable {event : SlaEvent} {message : SlaOutboxMessage} {sla : TicketSla} {key : EventKey}

@[simp] theorem addEvent_row : (r.addEvent event).row = r.row := rfl
@[simp] theorem addEvent_events : (r.addEvent event).events = r.events ++ [event] := rfl
@[simp] theorem addEvent_outbox : (r.addEvent event).outbox = r.outbox := rfl
@[simp] theorem addEvent_versions : (r.addEvent event).versions = r.versions := rfl

@[simp] theorem put_row : (r.put sla).row = update r.row sla := rfl
@[simp] theorem put_events : (r.put sla).events = r.events := rfl
@[simp] theorem put_outbox : (r.put sla).outbox = r.outbox := rfl
@[simp] theorem put_versions : (r.put sla).versions = r.versions ++ [update r.row sla] := rfl

@[simp] theorem emit_row : (r.emit message).row = r.row := by unfold emit; split <;> rfl
@[simp] theorem emit_events : (r.emit message).events = r.events := by unfold emit; split <;> rfl
@[simp] theorem emit_versions : (r.emit message).versions = r.versions := by
  unfold emit; split <;> rfl

@[simp] theorem hasKey_addEvent :
    (r.addEvent event).hasKey key = (r.hasKey key || decide (event.eventKey = key)) := by
  simp [hasKey]

@[simp] theorem hasKey_put : (r.put sla).hasKey key = r.hasKey key := rfl

@[simp] theorem hasKey_emit : (r.emit message).hasKey key = r.hasKey key := by
  simp [hasKey]

/-- `record_event` whose answer nobody reads. -/
def recordOnce (record : SlaRecord) (event : SlaEvent) : SlaRecord :=
  if record.hasKey event.eventKey then record else record.addEvent event

@[simp] theorem recordOnce_row : (r.recordOnce event).row = r.row := by
  unfold recordOnce; split <;> rfl
@[simp] theorem hasKey_recordOnce :
    (r.recordOnce event).hasKey key = (r.hasKey key || decide (event.eventKey = key)) := by
  unfold recordOnce
  split
  · rename_i hkey
    by_cases hsame : event.eventKey = key
    · rw [← hsame, hkey]
      rfl
    · rw [decide_eq_false hsame, Bool.or_false]
  · exact hasKey_addEvent

@[simp] theorem recordOnce_outbox : (r.recordOnce event).outbox = r.outbox := by
  unfold recordOnce; split <;> rfl
@[simp] theorem recordOnce_versions : (r.recordOnce event).versions = r.versions := by
  unfold recordOnce; split <;> rfl

end SlaRecord

theorem recordEvent_once {eventType : SlaEventType} {at_ : Instant} {key : EventKey}
    {data : List (String × Json)} {recorded : Bool}
    (h : (recordEvent eventType at_ key data).run r = .ok (recorded, r')) :
    r' = r.recordOnce ⟨eventType, at_, key, data⟩ := by
  unfold SlaRecord.recordOnce
  rcases recordEvent_ok h with ⟨hkey, _, rfl⟩ | ⟨hkey, _, rfl⟩
  · rw [if_pos hkey]
  · rw [hkey]
    rfl

/-! ## 3. One change -/

inductive WriteKind where
  | noted | advanced | warned | breached | paused | resumed | stopped | reopened | recalculated
  deriving DecidableEq, Repr

/-- A write: what it is, the time it is stamped with, the row it saves. -/
structure Write where
  kind : WriteKind
  at_ : Instant
  sla : TicketSla

/-- What `_breach` saves. -/
def breachedRow (sla : TicketSla) (at_ : Instant) : TicketSla :=
  { sla with
    state := .breached
    breachedAt := some at_
    remainingWorkingSeconds := 0
    lastCalculatedAt := at_ }

/-- What `_complete` saves. -/
def stoppedRow (sla : TicketSla) (at_ : Instant) : TicketSla :=
  { sla with
    state := if sla.state = .breached then .breached else .completed
    completedAt := some at_
    pausedAt := none
    lastCalculatedAt := at_ }

theorem stoppedRow_state (sla : TicketSla) (at_ : Instant) :
    (stoppedRow sla at_).state = .completed ∨ (stoppedRow sla at_).state = .breached := by
  by_cases hb : sla.state = .breached
  · exact Or.inr (if_pos hb)
  · exact Or.inl (if_neg hb)

/-- The record after `_complete` has saved: a completed row also met its target. -/
def SlaRecord.metIfCompleted (record : SlaRecord) (met : SlaEvent) : SlaRecord :=
  if record.row.state = .completed then record.recordOnce met else record

@[simp] theorem SlaRecord.metIfCompleted_row {met : SlaEvent} :
    (r.metIfCompleted met).row = r.row := by
  unfold SlaRecord.metIfCompleted
  split
  · exact SlaRecord.recordOnce_row
  · rfl

@[simp] theorem SlaRecord.metIfCompleted_outbox {met : SlaEvent} :
    (r.metIfCompleted met).outbox = r.outbox := by
  unfold SlaRecord.metIfCompleted
  split
  · exact SlaRecord.recordOnce_outbox
  · rfl

@[simp] theorem SlaRecord.metIfCompleted_versions {met : SlaEvent} :
    (r.metIfCompleted met).versions = r.versions := by
  unfold SlaRecord.metIfCompleted
  split
  · exact SlaRecord.recordOnce_versions
  · rfl

/-- The row that saving `sla` leaves meets the checks of the table. -/
def Checked (r : SlaRecord) (sla : TicketSla) : Prop :=
  SlaRecord.temporalCheck (SlaRecord.update r.row sla) = true ∧
    SlaRecord.remainingCheck (SlaRecord.update r.row sla) = true

/-- **One change of a record.** -/
inductive Change (config : SlaConfig) (r : SlaRecord) : Write → SlaRecord → Prop where
  | noted {event : SlaEvent} (hevent : event.eventType = .started)
      (hkey : ∃ id, event.eventKey = .started id) (hnew : r.hasKey event.eventKey = false) :
      Change config r ⟨.noted, event.eventAt, r.row⟩ (r.addEvent event)
  | advanced {at_ : Instant} {current : TicketSla} (hstate : r.row.state = .running)
      (hlast : r.row.lastCalculatedAt < at_)
      (hcurrent : calculated config r.row at_ = .ok current) (hchecks : Checked r current) :
      Change config r ⟨.advanced, at_, current⟩ (r.put current)
  | warned {at_ : Instant} {data : List (String × Json)} {message : SlaOutboxMessage}
      (hstate : r.row.state = .running) (hnone : r.row.warningEmittedAt = none)
      (hgoal : ∃ w ∈ r.row.goal.warningSeconds, r.row.remainingWorkingSeconds ≤ w)
      (hnew : r.hasKey .warning = false) (hmessage : message.eventType = .slaWarning)
      (hchecks : Checked r { r.row with warningEmittedAt := some at_ }) :
      Change config r ⟨.warned, at_, { r.row with warningEmittedAt := some at_ }⟩
        (((r.addEvent ⟨.warning, at_, .warning, data⟩).put
          { r.row with warningEmittedAt := some at_ }).emit message)
  | breached {at_ : Instant} {current : TicketSla} {data : List (String × Json)}
      {message : SlaOutboxMessage} (hstate : r.row.state = .running)
      (hcurrent : calculated config r.row at_ = .ok current)
      (hused : current.remainingWorkingSeconds ≤ 0) (hnew : r.hasKey .breach = false)
      (hmessage : message.eventType = .slaBreached) (hchecks : Checked r (breachedRow current at_)) :
      Change config r ⟨.breached, at_, breachedRow current at_⟩
        (((r.addEvent ⟨.breached, at_, .breach, data⟩).put (breachedRow current at_)).emit message)
  | breachedOnReopen {at_ : Instant} {data : List (String × Json)} {message : SlaOutboxMessage}
      (hstate : r.row.state = .completed)
      (hused : r.row.goal.targetSeconds ≤ r.row.elapsedWorkingSeconds)
      (hnew : r.hasKey .breach = false) (hmessage : message.eventType = .slaBreached)
      (hchecks : Checked r (breachedRow { r.row with completedAt := none } at_)) :
      Change config r ⟨.breached, at_, breachedRow { r.row with completedAt := none } at_⟩
        (((r.addEvent ⟨.breached, at_, .breach, data⟩).put
          (breachedRow { r.row with completedAt := none } at_)).emit message)
  | paused {at_ : Instant} {current : TicketSla} {id : Uuid} {data : List (String × Json)}
      (hstate : r.row.state = .running) (hcurrent : calculated config r.row at_ = .ok current)
      (hnew : r.hasKey (.input id .paused r.row.ticketSlaId) = false)
      (hchecks : Checked r { current with state := .paused, pausedAt := some at_ }) :
      Change config r ⟨.paused, at_, { current with state := .paused, pausedAt := some at_ }⟩
        ((r.addEvent ⟨.paused, at_, .input id .paused r.row.ticketSlaId, data⟩).put
          { current with state := .paused, pausedAt := some at_ })
  | resumed {at_ pausedAt targetAt : Instant} {warningAt : Option Instant} {id : Uuid}
      {data : List (String × Json)} {calendar : BusinessCalendar} {sla : TicketSla}
      (hstate : r.row.state = .paused) (hpaused : r.row.pausedAt = some pausedAt)
      (hcalendar : goalCalendar config r.row.goal = .ok calendar)
      (htarget : calendar.addBusinessSeconds at_ r.row.remainingWorkingSeconds = .ok targetAt)
      (hwarning : remainingWarningAt calendar at_ r.row = .ok warningAt)
      (hnew : r.hasKey (.input id .resumed r.row.ticketSlaId) = false)
      (hsla : sla = { r.row with
        state := .running
        pausedAt := none
        accumulatedPauseSeconds :=
          r.row.accumulatedPauseSeconds + max 0 (wholeSeconds (at_ - pausedAt))
        targetAt := targetAt
        warningAt := warningAt
        lastCalculatedAt := at_ })
      (hchecks : Checked r sla) :
      Change config r ⟨.resumed, at_, sla⟩
        ((r.addEvent ⟨.resumed, at_, .input id .resumed r.row.ticketSlaId, data⟩).put sla)
  | stopped {at_ : Instant} {current : TicketSla} {id : Uuid} {data metData : List (String × Json)}
      (hopen : r.row.completedAt = none)
      (hstate : r.row.state ≠ .cancelled ∧ r.row.state ≠ .pending)
      (hcurrent : calculated config r.row at_ = .ok current)
      (hleft : current.state = .running → 0 < current.remainingWorkingSeconds)
      (hnew : r.hasKey (.input id .stopped r.row.ticketSlaId) = false)
      (hchecks : Checked r (stoppedRow current at_)) :
      Change config r ⟨.stopped, at_, stoppedRow current at_⟩
        (((r.addEvent ⟨.stopped, at_, .input id .stopped r.row.ticketSlaId, data⟩).put
          (stoppedRow current at_)).metIfCompleted
            ⟨.met, at_, .input id .met r.row.ticketSlaId, metData⟩)
  | reopened {at_ targetAt : Instant} {warningAt : Option Instant} {id : Uuid} {remaining : Int}
      {data : List (String × Json)} {calendar : BusinessCalendar} {sla : TicketSla}
      (hstate : r.row.state = .completed)
      (hcalendar : goalCalendar config r.row.goal = .ok calendar)
      (hremaining : remaining = r.row.goal.targetSeconds - r.row.elapsedWorkingSeconds)
      (hleft : 0 < remaining)
      (htarget : calendar.addBusinessSeconds at_ remaining = .ok targetAt)
      (hwarning : remainingWarningAt calendar at_
        { r.row with remainingWorkingSeconds := remaining } = .ok warningAt)
      (hnew : r.hasKey (.input id .reopened r.row.ticketSlaId) = false)
      (hsla : sla = { r.row with
        state := .running
        completedAt := none
        remainingWorkingSeconds := remaining
        targetAt := targetAt
        warningAt := warningAt
        lastCalculatedAt := at_ })
      (hchecks : Checked r sla) :
      Change config r ⟨.reopened, at_, sla⟩
        ((r.addEvent ⟨.resumed, at_, .input id .reopened r.row.ticketSlaId, data⟩).put sla)
  | recalculated {at_ targetAt : Instant} {warningAt : Option Instant} {id : Uuid} {remaining : Int}
      {data : List (String × Json)} {calendar : BusinessCalendar} {goal : SlaGoalVersion}
      {current sla : TicketSla}
      (hstate : r.row.state ≠ .cancelled ∧ r.row.state ≠ .completed ∧ r.row.state ≠ .breached)
      (hcurrent : calculated config r.row at_ = .ok current)
      (hcalendar : goalCalendar config goal = .ok calendar)
      (hremaining : remaining = max 0 (goal.targetSeconds - current.elapsedWorkingSeconds))
      (htarget : calendar.addBusinessSeconds at_ remaining = .ok targetAt)
      (hwarning : remainingWarningAt calendar at_
        { current with goal := goal, remainingWorkingSeconds := remaining } = .ok warningAt)
      (hnew : r.hasKey (.input id .recalculated r.row.ticketSlaId) = false)
      (hsla : sla = { current with
        goal := goal
        remainingWorkingSeconds := remaining
        targetAt := targetAt
        warningAt := warningAt
        lastCalculatedAt := at_ })
      (hchecks : Checked r sla) :
      Change config r ⟨.recalculated, at_, sla⟩
        ((r.addEvent ⟨.recalculated, at_, .input id .recalculated r.row.ticketSlaId, data⟩).put sla)

/-- What a change does to the row and its history. -/
theorem Change.versions {w : Write} (hc : Change config r w r') :
    (r'.row = r.row ∧ r'.versions = r.versions) ∨
      (r'.row = SlaRecord.update r.row w.sla ∧ r'.versions = r.versions ++ [r'.row]) := by
  have hemit : ∀ {event : SlaEvent} {sla : TicketSla} {message : SlaOutboxMessage},
      (((r.addEvent event).put sla).emit message).row = SlaRecord.update r.row sla ∧
        (((r.addEvent event).put sla).emit message).versions =
          r.versions ++ [(((r.addEvent event).put sla).emit message).row] := by
    intro event sla message
    rw [SlaRecord.emit_row, SlaRecord.emit_versions]
    exact ⟨rfl, rfl⟩
  cases hc with
  | noted => exact Or.inl ⟨rfl, rfl⟩
  | advanced => exact Or.inr ⟨rfl, rfl⟩
  | warned => exact Or.inr hemit
  | breached => exact Or.inr hemit
  | breachedOnReopen => exact Or.inr hemit
  | paused => exact Or.inr ⟨rfl, rfl⟩
  | resumed => exact Or.inr ⟨rfl, rfl⟩
  | stopped =>
      right
      rw [SlaRecord.metIfCompleted_row, SlaRecord.metIfCompleted_versions]
      exact ⟨rfl, rfl⟩
  | reopened => exact Or.inr ⟨rfl, rfl⟩
  | recalculated => exact Or.inr ⟨rfl, rfl⟩

/-- A run of changes from `r` to `r'` all of whose labels meet `P`. -/
def Writes (config : SlaConfig) (P : Write → Prop) (r r' : SlaRecord) : Prop :=
  ∃ ws, Run (Change config) r ws r' ∧ ∀ w ∈ ws, P w

/-- The same, and the run is empty exactly under `idle`. -/
def Does (config : SlaConfig) (idle : Prop) (P : Write → Prop) (r r' : SlaRecord) : Prop :=
  ∃ ws, Run (Change config) r ws r' ∧ (ws = [] ↔ idle) ∧ ∀ w ∈ ws, P w

section Chains

variable {P Q : Write → Prop} {idle : Prop} {r₁ : SlaRecord}

theorem Writes.nothing : Writes config P r r :=
  ⟨[], .start, fun _ hw => absurd hw List.not_mem_nil⟩

theorem Writes.one {w : Write} (hc : Change config r w r') (hw : P w) : Writes config P r r' := by
  refine ⟨[w], .next .start hc, fun w' hw' => ?_⟩
  rw [List.mem_singleton.mp hw']
  exact hw

theorem Writes.append (h : Writes config P r r₁) (h' : Writes config P r₁ r') :
    Writes config P r r' := by
  obtain ⟨ws, hrun, hws⟩ := h
  obtain ⟨ws', hrun', hws'⟩ := h'
  refine ⟨ws ++ ws', hrun.append hrun', fun w hw => ?_⟩
  rcases List.mem_append.mp hw with hw | hw
  · exact hws w hw
  · exact hws' w hw

theorem Writes.mono (hPQ : ∀ w, P w → Q w) (h : Writes config P r r') : Writes config Q r r' := by
  obtain ⟨ws, hrun, hws⟩ := h
  exact ⟨ws, hrun, fun w hw => hPQ w (hws w hw)⟩

/-- **The invariant rule for one record**: what every change with an admissible
    label keeps, the whole chain keeps. -/
theorem Writes.invariant {I : SlaRecord → Prop} (h : Writes config P r r') (hI : I r)
    (hstep : ∀ s w s', I s → Change config s w s' → P w → I s') : I r' := by
  obtain ⟨ws, hrun, hws⟩ := h
  induction hrun with
  | start => exact hI
  | next _ hs ih =>
      exact hstep _ _ _ (ih fun w hw => hws w (List.mem_append_left _ hw)) hs
        (hws _ (List.mem_append_right _ (List.mem_singleton_self _)))

theorem Does.writes (h : Does config idle P r r') :
    Writes config (fun w => ¬ idle ∧ P w) r r' := by
  obtain ⟨ws, hrun, hidle, hws⟩ := h
  refine ⟨ws, hrun, fun w hw => ⟨fun hno => ?_, hws w hw⟩⟩
  rw [hidle.mpr hno] at hw
  exact List.not_mem_nil hw

/-- A chain without admissible labels is empty. -/
theorem Writes.eq_of_none (h : Writes config P r r') (hnone : ∀ w, ¬ P w) : r' = r := by
  obtain ⟨ws, hrun, hws⟩ := h
  cases hrun with
  | start => rfl
  | next _ _ => exact absurd (hws _ (List.mem_append_right _ (List.mem_singleton_self _))) (hnone _)

theorem Does.mono (hPQ : ∀ w, P w → Q w) (h : Does config idle P r r') :
    Does config idle Q r r' := by
  obtain ⟨ws, hrun, hidle, hws⟩ := h
  exact ⟨ws, hrun, hidle, fun w hw => hPQ w (hws w hw)⟩

theorem Does.nothing (h : idle) : Does config idle P r r :=
  ⟨[], .start, ⟨fun _ => h, fun _ => rfl⟩, fun _ hw => absurd hw List.not_mem_nil⟩

theorem Does.one {w : Write} (h : ¬ idle) (hc : Change config r w r') (hw : P w) :
    Does config idle P r r' := by
  refine ⟨[w], .next .start hc, ⟨fun hnil => absurd hnil (List.cons_ne_nil _ _), ?_⟩, ?_⟩
  · exact fun hidle => absurd hidle h
  · intro w' hw'
    rw [List.mem_singleton.mp hw']
    exact hw

theorem Does.two {w₁ w₂ : Write} (h : ¬ idle) (hc₁ : Change config r w₁ r₁)
    (hc₂ : Change config r₁ w₂ r') (hw₁ : P w₁) (hw₂ : P w₂) : Does config idle P r r' := by
  refine ⟨[w₁, w₂], .next (.next .start hc₁) hc₂, ⟨fun hnil => ?_, ?_⟩, ?_⟩
  · exact absurd hnil (List.cons_ne_nil _ _)
  · exact fun hidle => absurd hidle h
  · intro w' hw'
    rcases List.mem_pair.mp hw' with rfl | rfl
    · exact hw₁
    · exact hw₂

end Chains

end Helpdesk.Sla
