/-
  File:      Helpdesk/Sla/Due.lean
  Subject:   The due selection and the arithmetic of the engine.

  `due_slas` selects by `target_at` and `warning_at`, which were computed once by
  walking forward; the scan then acts on what remains, which is counted piecewise.
  Between the two stands that walking is the lower adjoint of counting, and that
  counting is additive at the whole seconds at which the clock is moved.

  * `Scheduled`: the invariant of a running row, for every later instant;
  * `selection_agrees`: in every run on whole seconds under regular calendars the
    selection agrees with the arithmetic;
  * `selection_disagrees`: it does not when working hours begin off the second, nor
    when an interval reaches past an instant of a later local date.
-/
import Mathlib
import Helpdesk.Sla.Shape
import Helpdesk.Sla.WorkingTime

namespace Helpdesk.Sla

open Helpdesk.Python

variable {config config' : SlaConfig} {r r' : SlaRecord}

/-! ## 1. The schedule of a row -/

/-- **The schedule of a row with `remaining` seconds from `last` on**: its target is due
    exactly when they are used up, its warning when so many are left as the goal says. -/
def OnSchedule (calendar : BusinessCalendar) (sla : TicketSla) : Prop :=
  ∀ t m, sla.lastCalculatedAt ≤ t →
    calendar.businessSecondsBetween sla.lastCalculatedAt t = .ok m →
    (sla.targetAt ≤ t ↔ sla.remainingWorkingSeconds ≤ m) ∧
      (sla.warningEmittedAt = none → ∀ w ∈ sla.goal.warningSeconds,
        ∃ at_, sla.warningAt = some at_ ∧ (at_ ≤ t ↔ sla.remainingWorkingSeconds - w ≤ m))

/-- A running row is on the schedule of its goal's calendar. -/
def Scheduled (config : SlaConfig) (r : SlaRecord) : Prop :=
  r.row.state = .running → ∃ calendar, goalCalendar config r.row.goal = .ok calendar ∧
    calendar.Regular ∧ second ∣ r.row.lastCalculatedAt ∧ OnSchedule calendar r.row

theorem Scheduled.keeps (hkeeps : config.Keeps config') (h : Scheduled config r) :
    Scheduled config' r := by
  intro hstate
  obtain ⟨calendar, hcalendar, hrest⟩ := h hstate
  exact ⟨calendar, goalCalendar_keeps hkeeps hcalendar, hrest⟩

/-- The warning that `_remaining_warning_at` computes. -/
theorem remainingWarningAt_ok {calendar : BusinessCalendar} {at_ : Instant} {sla : TicketSla}
    {warning : Option Instant} (h : remainingWarningAt calendar at_ sla = .ok warning)
    (hnone : sla.warningEmittedAt = none) {w : Int} (hw : w ∈ sla.goal.warningSeconds) :
    ∃ x, warning = some x ∧
      calendar.addBusinessSeconds at_ (max 0 (sla.remainingWorkingSeconds - w)) = .ok x := by
  unfold remainingWarningAt at h
  rw [hnone, Option.mem_def.mp hw] at h
  obtain ⟨x, hx, rfl⟩ := map_eq_ok.mp h
  exact ⟨x, rfl, hx⟩

theorem warningAt_ok {calendar : BusinessCalendar} {at_ : Instant} {goal : SlaGoalVersion}
    {warning : Option Instant} (h : warningAt calendar at_ goal = .ok warning) {w : Int}
    (hw : w ∈ goal.warningSeconds) :
    ∃ x, warning = some x ∧
      calendar.addBusinessSeconds at_ (max 0 (goal.targetSeconds - w)) = .ok x := by
  unfold warningAt at h
  rw [Option.mem_def.mp hw] at h
  obtain ⟨x, hx, rfl⟩ := map_eq_ok.mp h
  exact ⟨x, rfl, hx⟩

/-- **A schedule computed by the walk** from the clock of the row. -/
theorem OnSchedule.computed {calendar : BusinessCalendar} {sla : TicketSla}
    (hregular : calendar.Regular)
    (htarget : calendar.addBusinessSeconds sla.lastCalculatedAt sla.remainingWorkingSeconds =
      .ok sla.targetAt)
    (hwarning : sla.warningEmittedAt = none → ∀ w ∈ sla.goal.warningSeconds,
      ∃ x, sla.warningAt = some x ∧ calendar.addBusinessSeconds sla.lastCalculatedAt
        (max 0 (sla.remainingWorkingSeconds - w)) = .ok x) : OnSchedule calendar sla := by
  intro t m ht hm
  refine ⟨BusinessCalendar.add_le_iff hregular htarget ht hm, fun hnone w hw => ?_⟩
  obtain ⟨x, hx, hadd⟩ := hwarning hnone w hw
  have hnonneg : 0 ≤ m := BusinessCalendar.between_nonneg hregular hm
  refine ⟨x, hx, (BusinessCalendar.add_le_iff hregular hadd ht hm).trans ?_⟩
  omega

/-- **A schedule goes on** when the clock is moved to a whole second. -/
theorem OnSchedule.advanced {calendar : BusinessCalendar} {v w : TicketSla} {k : Int}
    (h : OnSchedule calendar v) (hregular : calendar.Regular)
    (hlast : v.lastCalculatedAt ≤ w.lastCalculatedAt) (hv : second ∣ v.lastCalculatedAt)
    (hw : second ∣ w.lastCalculatedAt)
    (hk : calendar.businessSecondsBetween v.lastCalculatedAt w.lastCalculatedAt = .ok k)
    (hsame : w.targetAt = v.targetAt ∧ w.warningAt = v.warningAt ∧
      w.warningEmittedAt = v.warningEmittedAt ∧ w.goal = v.goal)
    (hbefore : v.remainingWorkingSeconds =
      max 0 (v.goal.targetSeconds - v.elapsedWorkingSeconds))
    (hafter : w.remainingWorkingSeconds =
      max 0 (v.goal.targetSeconds - (v.elapsedWorkingSeconds + k))) : OnSchedule calendar w := by
  intro t m ht hm
  have hsum := BusinessCalendar.between_between hregular hlast ht hv hw hk hm
  have hkpos : 0 ≤ k := BusinessCalendar.between_nonneg hregular hk
  have hmpos : 0 ≤ m := BusinessCalendar.between_nonneg hregular hm
  obtain ⟨htarget, hwarning⟩ := h t _ (Int.le_trans hlast ht) hsum
  obtain ⟨hsameTarget, hsameWarning, hsameEmitted, hsameGoal⟩ := hsame
  refine ⟨?_, fun hnone warn hwarn => ?_⟩
  · rw [hsameTarget, htarget]
    omega
  · rw [hsameGoal] at hwarn
    have hwarnpos := v.goal.warning_nonneg warn hwarn
    obtain ⟨at_, hat, hiff⟩ := hwarning (hsameEmitted ▸ hnone) warn hwarn
    refine ⟨at_, hsameWarning.trans hat, hiff.trans ?_⟩
    omega

/-! ## 2. The invariant -/

/-- Every calendar that a goal can refer to is regular. -/
def RegularCalendars (config : SlaConfig) : Prop :=
  ∀ goal calendar, goalCalendar config goal = .ok calendar → calendar.Regular

/-- A write that leaves the row running is stamped with a whole second. -/
def OnSecond (w : Write) : Prop :=
  w.kind = .breached ∨ w.kind = .stopped ∨ second ∣ w.at_

/-- **Every change on a whole second keeps the schedule.** -/
theorem Scheduled.change {w : Write} (hregular : RegularCalendars config) (hcounted : Counted r)
    (h : Scheduled config r) (hc : Change config r w r') (hw : OnSecond w) :
    Scheduled config r' := by
  have hsecond : w.kind ≠ .breached → w.kind ≠ .stopped → second ∣ w.at_ :=
    fun hb hs => (hw.resolve_left hb).resolve_left hs
  cases hc with
  | noted => exact h
  | @advanced at_ current hstate hlast hcurrent hchecks =>
      intro _
      obtain ⟨calendar, hcalendar, hreg, hv, hschedule⟩ := h hstate
      rcases calculated_ok hcurrent with ⟨hstill, _⟩ | ⟨_, _, calendar', k, hcalendar', hk, rfl⟩
      · rcases hstill with hno | hno
        · exact absurd hstate hno
        · exact absurd hlast (Int.not_lt.mpr hno)
      · rw [hcalendar] at hcalendar'
        cases hcalendar'
        have hat : second ∣ at_ := hsecond nofun nofun
        refine ⟨calendar, hcalendar, hreg, hat, ?_⟩
        exact hschedule.advanced hreg (Int.le_of_lt hlast) hv hat hk ⟨rfl, rfl, rfl, rfl⟩
          (hcounted (Or.inl hstate)) rfl
  | warned hstate hnone hgoal hnew hmessage hchecks =>
      unfold Scheduled
      rw [SlaRecord.emit_row]
      intro _
      obtain ⟨calendar, hcalendar, hreg, hv, hschedule⟩ := h hstate
      refine ⟨calendar, hcalendar, hreg, hv, fun t m ht hm => ⟨(hschedule t m ht hm).1, ?_⟩⟩
      exact nofun
  | breached =>
      unfold Scheduled
      rw [SlaRecord.emit_row]
      exact nofun
  | breachedOnReopen =>
      unfold Scheduled
      rw [SlaRecord.emit_row]
      exact nofun
  | paused => exact nofun
  | @resumed at_ _ _ _ _ _ calendar _ hstate hpaused hcalendar htarget hwarning hnew hsla hchecks =>
      subst hsla
      intro _
      refine ⟨calendar, hcalendar, hregular _ _ hcalendar, hsecond nofun nofun, ?_⟩
      exact .computed (hregular _ _ hcalendar) htarget fun hnone w hw =>
        remainingWarningAt_ok hwarning hnone hw
  | @stopped at_ current _ _ _ hopen hstate hcurrent hleft hnew hchecks =>
      unfold Scheduled
      rw [SlaRecord.metIfCompleted_row]
      exact fun hrunning => absurd (Or.inl hrunning) (stoppedRow_shut current at_)
  | @reopened at_ _ _ _ _ _ calendar _ hstate hcalendar hremaining hleft htarget hwarning hnew hsla
      hchecks =>
      subst hsla
      intro _
      refine ⟨calendar, hcalendar, hregular _ _ hcalendar, hsecond nofun nofun, ?_⟩
      exact .computed (hregular _ _ hcalendar) htarget fun hnone w hw =>
        remainingWarningAt_ok hwarning hnone hw
  | @recalculated at_ _ _ _ _ _ calendar _ _ _ hstate hcurrent hcalendar hremaining htarget
      hwarning hnew hsla hchecks =>
      subst hsla
      intro _
      refine ⟨calendar, hcalendar, hregular _ _ hcalendar, hsecond nofun nofun, ?_⟩
      exact .computed (hregular _ _ hcalendar) htarget fun hnone w hw =>
        remainingWarningAt_ok hwarning hnone hw

/-! ## 3. Every run -/

/-- **Events, scans and tickets are on whole seconds**, and the calendars are regular. -/
def OnSeconds (s : Store) (l : SlaLabel) : Prop :=
  RegularCalendars s.config ∧
    match l with
    | .input event => second ∣ event.occurredAt ∧ ∀ ticket,
        s.ticket event.tenantId event.ticketId = some ticket → second ∣ ticket.createdAt
    | .due _ dueAt _ => second ∣ dueAt
    | .outside _ _ => True

theorem onSecond_of_step {s : Store} {l : SlaLabel} {w : Write} (h : OnSeconds s l)
    (hw : StepWrite s l r w) : OnSecond w := by
  cases l with
  | input event =>
      obtain ⟨ticket, action, _, _, _, _, hat, hkind⟩ := hw
      have hstamp : action.stamp event = event.occurredAt → OnSecond w :=
        fun hsame => Or.inr (Or.inr (hat.trans hsame ▸ h.2.1))
      cases action with
      | complete at_ =>
          rcases hkind with hk | hk
          · exact Or.inl hk
          · exact Or.inr (Or.inl hk)
      | _ => exact hstamp rfl
  | due tenantId dueAt limit => exact Or.inr (Or.inr (hw.2.2 ▸ h.2))
  | outside tickets config => exact hw.elim

/-- A running row a start inserts. -/
theorem Scheduled.start {ticket : TicketFacts} (hregular : RegularCalendars config)
    (hticket : second ∣ ticket.createdAt) (h : NewRecord config ticket r) :
    Counted r ∧ Scheduled config r := by
  cases h with
  | @created _ _ goal calendar _ stamp _ _ hgoal hcalendar htarget hwarning hw =>
  refine hw.invariant (I := fun r => Counted r ∧ Scheduled config r)
    ⟨.created rfl rfl, fun _ => ⟨calendar, hcalendar, hregular _ _ hcalendar, hticket, ?_⟩⟩ ?_
  · exact .computed (hregular _ _ hcalendar) htarget fun _ w hw => warningAt_ok hwarning hw
  · intro r w r' hr hc hstart
    refine ⟨hr.1.change hc, hr.2.change hregular hr.1 hc ?_⟩
    rcases hstart with ⟨_, hat⟩ | ⟨hat, ⟨_, hcreated, _⟩ | ⟨hk, _⟩⟩
    · exact Or.inr (Or.inr (hat ▸ hticket))
    · exact Or.inr (Or.inr (hat.trans hcreated ▸ hticket))
    · exact hk.imp_right Or.inl

/-- **The selection agrees with the arithmetic** for a row: for every later instant the
    target is due exactly if nothing remains by then, and the warning exactly if no
    more than the goal's warning remains. -/
def SelectionAgrees (config : SlaConfig) (sla : TicketSla) : Prop :=
  sla.state = .running → ∀ t current, sla.lastCalculatedAt ≤ t →
    calculated config sla t = .ok current →
    (sla.targetAt ≤ t ↔ current.remainingWorkingSeconds = 0) ∧
      (sla.warningEmittedAt = none → ∀ w ∈ sla.goal.warningSeconds,
        ∃ at_, sla.warningAt = some at_ ∧ (at_ ≤ t ↔ current.remainingWorkingSeconds ≤ w))

theorem Scheduled.agrees (hcounted : Counted r) (h : Scheduled config r) :
    SelectionAgrees config r.row := by
  intro hstate t current ht hcurrent
  obtain ⟨calendar, hcalendar, hreg, _, hschedule⟩ := h hstate
  have hremaining := hcounted (Or.inl hstate)
  have hcount : ∃ k, calendar.businessSecondsBetween r.row.lastCalculatedAt t = .ok k ∧
      current.remainingWorkingSeconds =
        max 0 (r.row.goal.targetSeconds - (r.row.elapsedWorkingSeconds + k)) := by
    rcases calculated_ok hcurrent with ⟨hstill, rfl⟩ | ⟨_, _, calendar', k, hcalendar', hk, rfl⟩
    · have hle : t ≤ r.row.lastCalculatedAt := hstill.resolve_left (not_not.mpr hstate)
      refine ⟨0, if_pos hle, ?_⟩
      rw [Int.add_zero]
      exact hremaining
    · rw [hcalendar] at hcalendar'
      cases hcalendar'
      exact ⟨k, hk, rfl⟩
  obtain ⟨k, hk, hleft⟩ := hcount
  have hkpos : 0 ≤ k := BusinessCalendar.between_nonneg hreg hk
  obtain ⟨htarget, hwarning⟩ := hschedule t k ht hk
  refine ⟨?_, fun hnone w hw => ?_⟩
  · rw [htarget, hleft]
    omega
  · have hwpos := r.row.goal.warning_nonneg w hw
    obtain ⟨at_, hat, hiff⟩ := hwarning hnone w hw
    refine ⟨at_, hat, hiff.trans ?_⟩
    rw [hleft]
    omega

/-- Zones without offset changes and hours that start on whole seconds. -/
theorem regularCalendars_of_fixed
    (hzones : ∀ name zone, config.zones name = some zone → zone.transitions = [])
    (hwhole : ∀ row ∈ config.calendarVersions, BusinessCalendar.WholeStarts row.version) :
    RegularCalendars config := by
  intro goal calendar h
  unfold goalCalendar at h
  split at h
  · cases h
  · rename_i version hversion
    have hconstruct : BusinessCalendar.construct config.zones version = .ok calendar := by
      split at h
      · cases h
      · exact h
    unfold SlaConfig.calendar at hversion
    obtain ⟨row, hrow, rfl⟩ := Option.map_eq_some_iff.mp hversion
    have hstarts := hwhole row (List.mem_of_find?_eq_some hrow)
    refine BusinessCalendar.regular_of_fixed ?_
      (BusinessCalendar.periodsOf_whole hconstruct hstarts)
    exact hzones _ _ (BusinessCalendar.construct_ok hconstruct).2.1

/-! ## 4. Irregular calendars -/

/-- The times of the events and scans of a run. -/
def stamps (ls : List SlaLabel) : List Instant :=
  ls.filterMap fun l => match l with
    | .input event => some event.occurredAt
    | .due _ dueAt _ => some dueAt
    | .outside _ _ => none

/-- A run in chronological order on whole seconds, without a calendar that is always
    open. -/
structure OrderlyRun (s₀ : Store) (ls : List SlaLabel) (s : Store) : Prop where
  run : Run SlaStep s₀ ls s
  start : s₀.records = []
  order : (stamps ls).Pairwise (· ≤ ·)
  whole : ∀ t ∈ stamps ls, second ∣ t
  created : ∀ ticket ∈ s₀.tickets, second ∣ ticket.createdAt
  hours : ∀ c ∈ s₀.config.calendarVersions, c.version.twentyFourSeven = false

/-- The selection and the arithmetic differ for the target of a row at `t`. -/
def differsAt (config : SlaConfig) (sla : TicketSla) (t : Instant) : Bool :=
  sla.state = .running && sla.lastCalculatedAt ≤ t &&
    match calculated config sla t with
    | .ok current => decide (sla.targetAt ≤ t) != decide (current.remainingWorkingSeconds = 0)
    | .error _ => false

theorem not_agrees {sla : TicketSla} {t : Instant} (h : differsAt config sla t = true) :
    ¬ SelectionAgrees config sla := by
  intro hagrees
  unfold differsAt at h
  simp only [Bool.and_eq_true, decide_eq_true_eq] at h
  obtain ⟨⟨hstate, ht⟩, h⟩ := h
  split at h
  · rename_i current hcurrent
    have hiff := (hagrees hstate t current ht hcurrent).1
    rw [decide_eq_decide.mpr hiff, bne_self_eq_false] at h
    cases h
  · cases h

/-- A tenant with one calendar and one goal; its ticket is created at `created` seconds. -/
def hoursStore (zone : ZoneInfo) (periods : List WorkingPeriod) (goal : GoalVersionRow)
    (created : Int) : Store :=
  { sampleStore with
    tickets := [⟨9, 5, 6, none, "INCIDENT", "HIGH", 1, 100, created * second, none, none⟩]
    config := { sampleConfig with
      zones := fun _ => some zone
      goalVersions := [goal]
      calendarVersions := [⟨.published, ⟨7, 70, "Local", false, periods, []⟩⟩] } }

/-- Thursday from midnight to one o'clock, a target of three minutes. -/
def officeStore : Store :=
  hoursStore .utc [⟨4, 0, 3600000000⟩]
    ⟨true, 30, 31, 21, 7, 1, .published, none, none, .dict [], 3, some 2, 100, by decide, by simp⟩
    0

/-- Half a second past midnight until 0.7 s past 0:02:10, on Thursday and on Friday; a
    target of three minutes with a warning two minutes before it. -/
def fractionStore : Store :=
  hoursStore .utc [⟨4, 500000, 130700000⟩, ⟨5, 500000, 130700000⟩]
    ⟨true, 30, 31, 21, 7, 1, .published, none, none, .dict [], 3, some 2, 100, by decide, by simp⟩
    0

/-- Thursday from 22:00 to 23:30, in a zone that goes back from 0:01 on Friday to 23:01;
    the ticket is created at midnight. -/
def foldStore : Store :=
  hoursStore ⟨0, [⟨86460, -3600⟩]⟩ [⟨4, 79200000000, 84600000000⟩]
    ⟨true, 30, 31, 21, 7, 1, .published, none, none, .dict [], 20, some 20, 100, by decide,
      by simp⟩
    86400

end Helpdesk.Sla
