/-
  File:      Helpdesk/Sla/Progress.lean
  Subject:   Whether a row that the due scan has processed is selected again.

  `due_slas` selects by the stored `target_at` and `warning_at`; `evaluate_due` then breaches a
  row whose clock, moved to the scan, has used its target, and warns one whose goal has a
  warning that covers what is left. A selected row for which neither happens is selected
  again by the next scan.

  * `WarningKept`: the warning event is there only with the time it was emitted at;
  * `dueRow_result`: what one row of the scan becomes;
  * `rescanned_iff`: in every run, a row that was processed is out of the selection exactly if
    its target was used up, or its target is ahead and its goal's warning covers the rest;
  * `selected_again`: after a switch to a goal without a warning it is not.
-/
import Mathlib
import Helpdesk.Sla.Due

namespace Helpdesk.Sla

open Helpdesk.Python

variable {config : SlaConfig} {r r' : SlaRecord} {s s' : Store}

/-! ## 1. The warning event -/

/-- The warning event is there only with its time. -/
def WarningKept (r : SlaRecord) : Prop :=
  r.hasKey .warning = true → r.row.warningEmittedAt ≠ none

theorem WarningKept.created (row : TicketSla) : WarningKept (.created row) := nofun

theorem WarningKept.fresh (h : WarningKept r) (hnone : r.row.warningEmittedAt = none) :
    r.hasKey .warning = false := by
  rw [Bool.eq_false_iff]
  exact fun hkey => h hkey hnone

/-- Another event, and a row saved with the same warning. -/
theorem WarningKept.saved {event : SlaEvent} {sla : TicketSla} (h : WarningKept r)
    (hkey : event.eventKey ≠ .warning) (hwarning : sla.warningEmittedAt = r.row.warningEmittedAt) :
    WarningKept ((r.addEvent event).put sla) := by
  intro hwarned
  rw [SlaRecord.hasKey_put, SlaRecord.hasKey_addEvent, decide_eq_false hkey, Bool.or_false] at hwarned
  show sla.warningEmittedAt ≠ none
  rw [hwarning]
  exact h hwarned

theorem WarningKept.emit {message : SlaOutboxMessage} (h : WarningKept r) :
    WarningKept (r.emit message) := by
  intro hwarned
  rw [SlaRecord.hasKey_emit] at hwarned
  rw [SlaRecord.emit_row]
  exact h hwarned

theorem WarningKept.metIfCompleted {met : SlaEvent} (h : WarningKept r)
    (hkey : met.eventKey ≠ .warning) : WarningKept (r.metIfCompleted met) := by
  unfold SlaRecord.metIfCompleted
  split
  · intro hwarned
    rw [SlaRecord.hasKey_recordOnce, decide_eq_false hkey, Bool.or_false] at hwarned
    rw [SlaRecord.recordOnce_row]
    exact h hwarned
  · exact h

/-- **Every change keeps it.** -/
theorem WarningKept.change {w : Write} (h : WarningKept r) (hc : Change config r w r') :
    WarningKept r' := by
  cases hc with
  | noted hevent hkey hnew =>
      obtain ⟨id, hkey⟩ := hkey
      intro hwarned
      rw [SlaRecord.hasKey_addEvent, hkey] at hwarned
      exact h (by simpa using hwarned)
  | advanced hstate hlast hcurrent hchecks =>
      obtain ⟨_, _, _, rfl⟩ := calculated_frame hcurrent
      exact h
  | warned hstate hnone hgoal hnew hmessage hchecks =>
      intro _
      rw [SlaRecord.emit_row]
      exact Option.some_ne_none _
  | breached hstate hcurrent hused hnew hmessage hchecks =>
      obtain ⟨_, _, _, rfl⟩ := calculated_frame hcurrent
      refine (h.saved ?_ ?_).emit
      · exact nofun
      · rfl
  | breachedOnReopen hstate hused hnew hmessage hchecks =>
      refine (h.saved ?_ ?_).emit
      · exact nofun
      · rfl
  | paused hstate hcurrent hnew hchecks =>
      obtain ⟨_, _, _, rfl⟩ := calculated_frame hcurrent
      exact h.saved EventKey.noConfusion rfl
  | resumed hstate hpaused hcalendar htarget hwarning hnew hsla hchecks =>
      subst hsla
      exact h.saved EventKey.noConfusion rfl
  | stopped hopen hstate hcurrent hleft hnew hchecks =>
      obtain ⟨_, _, _, rfl⟩ := calculated_frame hcurrent
      refine (h.saved ?_ ?_).metIfCompleted ?_
      · exact nofun
      · rfl
      · exact nofun
  | reopened hstate hcalendar hremaining hleft htarget hwarning hnew hsla hchecks =>
      subst hsla
      exact h.saved EventKey.noConfusion rfl
  | recalculated hstate hcurrent hcalendar hremaining htarget hwarning hnew hsla hchecks =>
      obtain ⟨_, _, _, rfl⟩ := calculated_frame hcurrent
      subst hsla
      exact h.saved EventKey.noConfusion rfl

/-- What the scan relies on, of every row of every run. -/
theorem kept_of_run {s₀ : Store} {ls : List SlaLabel} (hrun : Run SlaStep s₀ ls s)
    (h0 : s₀.records = []) :
    ∀ r ∈ s.records, BreachKept r ∧ WarningKept r ∧ Counted r := by
  have hguarded : Run (Guarded (fun _ _ => True) SlaStep) s₀ ls s :=
    hrun.mono fun _ _ _ hs => ⟨trivial, hs⟩
  refine records_invariant (I := fun _ r => WarningKept r ∧ Counted r) hguarded h0 ?_ ?_ ?_
  · exact fun _ h => h
  · intro s l r _ hcreates
    obtain ⟨_, _, _, _, _, _, _, _, _, hw⟩ := hcreates
    refine hw.invariant (I := fun r => WarningKept r ∧ Counted r) ⟨.created _, .created rfl rfl⟩ ?_
    exact fun _ _ _ h hc _ => ⟨h.1.change hc, h.2.change hc⟩
  · intro s l r r' _ _ h hw
    refine hw.invariant (I := fun r => WarningKept r ∧ Counted r) h ?_
    exact fun _ _ _ h hc _ => ⟨h.1.change hc, h.2.change hc⟩

/-! ## 2. One row of the scan -/

/-- The working seconds counted by `at_`: those on the row, and those since its clock. -/
def workedBy (config : SlaConfig) (sla : TicketSla) (at_ : Instant) : Except Failure Int :=
  if at_ ≤ sla.lastCalculatedAt then .ok sla.elapsedWorkingSeconds
  else do
    let calendar ← goalCalendar config sla.goal
    return sla.elapsedWorkingSeconds + (← calendar.businessSecondsBetween sla.lastCalculatedAt at_)

/-- The row after its clock was moved: the columns of the selection are those they were, and
    what remains is what was not worked. -/
structure Advanced (config : SlaConfig) (sla : TicketSla) (at_ : Instant) (sla' : TicketSla)
    (worked : Int) : Prop where
  counted : workedBy config sla at_ = .ok worked
  remaining : sla'.remainingWorkingSeconds = max 0 (sla.goal.targetSeconds - worked)
  state : sla'.state = .running
  goal : sla'.goal = sla.goal
  tenantId : sla'.tenantId = sla.tenantId
  targetAt : sla'.targetAt = sla.targetAt
  warningAt : sla'.warningAt = sla.warningAt
  warningEmittedAt : sla'.warningEmittedAt = sla.warningEmittedAt

theorem advance_result {at_ : Instant} {x : TicketSla} (hcounted : Counted r)
    (hstate : r.row.state = .running) (h : (advance config r.row at_).run r = .ok (x, r')) :
    x = r'.row ∧ (∃ worked, Advanced config r.row at_ r'.row worked) ∧
      ∀ key, r'.hasKey key = r.hasKey key := by
  obtain ⟨hx, _, _, hkeys, hmoved⟩ := advance_ok hstate h
  refine ⟨hx, ?_, hkeys⟩
  rcases hmoved with ⟨rfl, hlast⟩ | ⟨current, hchange⟩
  · have hworked : workedBy config r'.row at_ = .ok r'.row.elapsedWorkingSeconds := if_pos hlast
    exact ⟨_, hworked, hcounted (Or.inl hstate), hstate, rfl, rfl, rfl, rfl, rfl⟩
  · generalize hlabel : (⟨.advanced, at_, current⟩ : Write) = w at hchange
    cases hchange with
    | advanced _ hlast hcurrent =>
        cases hlabel
        rcases calculated_ok hcurrent with ⟨hstill, _⟩ | ⟨_, _, calendar, k, hcalendar, hk, rfl⟩
        · exact absurd (hstill.resolve_left (not_not.mpr hstate)) (Int.not_le.mpr hlast)
        · have hworked : workedBy config r.row at_ = .ok (r.row.elapsedWorkingSeconds + k) := by
            unfold workedBy
            rw [if_neg (Int.not_le.mpr hlast)]
            simp only [bind_eq_ok, pure_eq_ok]
            exact ⟨calendar, hcalendar, k, hk, rfl⟩
          exact ⟨_, hworked, rfl, hstate, rfl, rfl, rfl, rfl, rfl⟩
    | _ => cases hlabel

/-- A warning is due: none was emitted, and the goal's covers what remains. -/
def WarningDue (sla : TicketSla) : Prop :=
  sla.warningEmittedAt = none ∧ ∃ w ∈ sla.goal.warningSeconds, sla.remainingWorkingSeconds ≤ w

theorem warnIfDue_result {at_ : Instant} {x : TicketSla} (hkept : WarningKept r)
    (h : (warnIfDue r.row at_).run r = .ok (x, r')) :
    x = r'.row ∧ (WarningDue r.row →
        r'.row = SlaRecord.update r.row { r.row with warningEmittedAt := some at_ }) ∧
      (¬ WarningDue r.row → r'.row = r.row) ∧ r'.hasKey .breach = r.hasKey .breach := by
  have hdue : (r.row.warningEmittedAt = none ∧
      r.row.goal.warningSeconds.any (r.row.remainingWorkingSeconds ≤ ·) = true) ↔
        WarningDue r.row := by
    simp [WarningDue, Option.any_eq_true]
  unfold warnIfDue at h
  by_cases hwarn : r.row.warningEmittedAt = none ∧
      r.row.goal.warningSeconds.any (r.row.remainingWorkingSeconds ≤ ·) = true
  · rw [if_pos hwarn] at h
    unfold warning at h
    rcases recordGuard_ok h with ⟨hkey, _⟩ | ⟨hkey, h⟩
    · rw [hkept.fresh hwarn.1] at hkey
      cases hkey
    · rw [Transaction.bind_eq_ok] at h
      obtain ⟨saved, r₁, hsave, h⟩ := h
      obtain ⟨_, rfl, rfl, _⟩ := save_ok hsave
      rw [Transaction.bind_eq_ok] at h
      obtain ⟨_, r₂, hemit, h⟩ := h
      obtain rfl := emitOutbox_ok hemit
      obtain ⟨rfl, rfl⟩ := Transaction.pure_eq_ok.mp h
      refine ⟨SlaRecord.emit_row.symm, fun _ => SlaRecord.emit_row, ?_, ?_⟩
      · exact fun hno => absurd (hdue.mp hwarn) hno
      · rw [SlaRecord.hasKey_emit, SlaRecord.hasKey_put, SlaRecord.hasKey_addEvent]
        simp
  · rw [if_neg hwarn] at h
    obtain ⟨rfl, rfl⟩ := Transaction.pure_eq_ok.mp h
    exact ⟨rfl, fun hwarned => absurd (hdue.mpr hwarned) hwarn, fun _ => rfl, rfl⟩

/-- **What one row of the scan becomes**: breached when its target is used up; otherwise it
    runs on, warned if its goal's warning covers what is left. -/
theorem dueRow_result {dueAt : Instant} {u : Unit} (hbreach : BreachKept r) (hwarning : WarningKept r)
    (hcounted : Counted r) (hstate : r.row.state = .running)
    (h : (dueRow config dueAt r.row).run r = .ok (u, r')) :
    ∃ worked, workedBy config r.row dueAt = .ok worked ∧
      (r.row.goal.targetSeconds ≤ worked → r'.row.state = .breached) ∧
      (worked < r.row.goal.targetSeconds → r'.row.state = .running ∧
        r'.row.tenantId = r.row.tenantId ∧ r'.row.targetAt = r.row.targetAt ∧
        r'.row.warningAt = r.row.warningAt ∧ (r'.row.warningEmittedAt = none ↔
          r.row.warningEmittedAt = none ∧
            ∀ w ∈ r.row.goal.warningSeconds, w < r.row.goal.targetSeconds - worked)) := by
  unfold dueRow at h
  rw [Transaction.bind_eq_ok] at h
  obtain ⟨advanced, r₁, hadvance, h⟩ := h
  obtain ⟨rfl, ⟨worked, hmoved⟩, hkeys₁⟩ := advance_result hcounted hstate hadvance
  have hkept₁ : WarningKept r₁ := by
    intro hkey
    rw [hmoved.warningEmittedAt]
    exact hwarning (hkeys₁ .warning ▸ hkey)
  rw [Transaction.bind_eq_ok] at h
  obtain ⟨current, r₂, hwarn, h⟩ := h
  obtain ⟨rfl, hwarned, hstill, hkey₂⟩ := warnIfDue_result hkept₁ hwarn
  -- the columns that a warning leaves alone
  have hrow : r₂.row.state = .running ∧ r₂.row.tenantId = r.row.tenantId ∧
      r₂.row.targetAt = r.row.targetAt ∧ r₂.row.warningAt = r.row.warningAt ∧
      r₂.row.remainingWorkingSeconds = max 0 (r.row.goal.targetSeconds - worked) := by
    by_cases hdue : WarningDue r₁.row
    · rw [hwarned hdue]
      exact ⟨hmoved.state, hmoved.tenantId, hmoved.targetAt, hmoved.warningAt, hmoved.remaining⟩
    · rw [hstill hdue]
      exact ⟨hmoved.state, hmoved.tenantId, hmoved.targetAt, hmoved.warningAt, hmoved.remaining⟩
  have hemitted : r₂.row.warningEmittedAt = none ↔
      r.row.warningEmittedAt = none ∧ ¬ WarningDue r₁.row := by
    by_cases hdue : WarningDue r₁.row
    · rw [hwarned hdue]
      exact ⟨nofun, fun hno => absurd hdue hno.2⟩
    · rw [hstill hdue, hmoved.warningEmittedAt]
      exact ⟨fun hnone => ⟨hnone, hdue⟩, And.left⟩
  obtain ⟨hrunning, htenant, htarget, hwarningAt, hremaining⟩ := hrow
  refine ⟨worked, hmoved.counted, ?_, ?_⟩
  · intro hused
    have hover : r₂.row.remainingWorkingSeconds ≤ 0 ∧ r₂.row.state = .running := by
      refine ⟨?_, hrunning⟩
      omega
    rw [if_pos hover, Transaction.bind_eq_ok] at h
    obtain ⟨_, r₃, hbreached, h⟩ := h
    obtain ⟨_, rfl⟩ := Transaction.pure_eq_ok.mp h
    have hfresh : r₂.hasKey .breach = false := by
      rw [hkey₂, hkeys₁]
      exact hbreach.fresh (by rw [hstate]; decide)
    rcases breach_ok hbreached with ⟨hno | hno, _⟩ | ⟨_, _, _, _, data, message, _, rfl⟩
    · rw [hrunning] at hno
      cases hno
    · rw [hfresh] at hno
      cases hno
    · rw [SlaRecord.emit_row]
      rfl
  · intro hleft
    have hover : ¬ (r₂.row.remainingWorkingSeconds ≤ 0 ∧ r₂.row.state = .running) := by
      rintro ⟨hnothing, _⟩
      omega
    rw [if_neg hover] at h
    obtain ⟨_, rfl⟩ := Transaction.pure_eq_ok.mp h
    refine ⟨hrunning, htenant, htarget, hwarningAt, hemitted.trans (and_congr_right fun hnone => ?_)⟩
    unfold WarningDue
    rw [hmoved.warningEmittedAt, hmoved.goal, hmoved.remaining, not_and]
    constructor
    · intro hno w hw
      have hnot : ¬ max 0 (r.row.goal.targetSeconds - worked) ≤ w := fun hle =>
        hno hnone ⟨w, hw, hle⟩
      omega
    · rintro hall _ ⟨w, hw, hle⟩
      have hlt := hall w hw
      omega

/-! ## 3. Every scan -/

/-- **The scan settles the row**: by then its target is used up, or the target is ahead and
    its goal has a warning that covers what is left. -/
def Settles (config : SlaConfig) (sla : TicketSla) (dueAt : Instant) : Prop :=
  ∃ worked, workedBy config sla dueAt = .ok worked ∧
    (sla.goal.targetSeconds ≤ worked ∨
      dueAt < sla.targetAt ∧ ∃ w ∈ sla.goal.warningSeconds, sla.goal.targetSeconds - worked ≤ w)

/-- A selected row is selected again exactly if the scan does not settle it. -/
theorem dueRow_settles_iff {tenantId : Uuid} {dueAt : Instant} {u : Unit} (hbreach : BreachKept r)
    (hwarning : WarningKept r) (hcounted : Counted r) (hdue : Store.isDue tenantId dueAt r.row = true)
    (h : (dueRow config dueAt r.row).run r = .ok (u, r')) :
    Store.isDue tenantId dueAt r'.row = false ↔ Settles config r.row dueAt := by
  have hstate := isDue_running hdue
  obtain ⟨worked, hworked, hover, hleft⟩ := dueRow_result hbreach hwarning hcounted hstate h
  have hsettles : Settles config r.row dueAt ↔ (r.row.goal.targetSeconds ≤ worked ∨
      dueAt < r.row.targetAt ∧
        ∃ w ∈ r.row.goal.warningSeconds, r.row.goal.targetSeconds - worked ≤ w) := by
    constructor
    · rintro ⟨other, hother, hcases⟩
      obtain rfl := Except.ok.inj (hworked.symm.trans hother)
      exact hcases
    · exact fun hcases => ⟨worked, hworked, hcases⟩
  rw [hsettles]
  by_cases hused : r.row.goal.targetSeconds ≤ worked
  · -- breached rows are not selected
    refine iff_of_true ?_ (Or.inl hused)
    simp [Store.isDue, hover hused]
  · obtain ⟨hrunning, htenant, htarget, hwarningAt, hemitted⟩ := hleft (Int.not_le.mp hused)
    simp only [Store.isDue, hstate, decide_true, Bool.and_true, Bool.and_eq_true,
      decide_eq_true_eq, Bool.or_eq_true, Option.isNone_iff_eq_none] at hdue
    obtain ⟨hof, hselected⟩ := hdue
    rw [or_iff_right hused]
    by_cases hahead : r.row.targetAt ≤ dueAt
    · refine iff_of_false ?_ fun hno => absurd hahead (Int.not_le.mpr hno.1)
      simp [Store.isDue, hrunning, htenant, hof, htarget, hahead]
    · obtain ⟨hnone, hwarned⟩ := hselected.resolve_left hahead
      have hagain : Store.isDue tenantId dueAt r'.row = false ↔ r'.row.warningEmittedAt ≠ none := by
        simp only [Store.isDue, hrunning, htenant, hof, htarget, hahead, hwarningAt, hwarned]
        cases r'.row.warningEmittedAt <;> simp
      rw [hagain, ne_eq, hemitted, and_iff_right (Int.not_le.mp hahead)]
      constructor
      · intro hno
        by_contra hall
        refine hno ⟨hnone, fun w hw => ?_⟩
        by_contra hle
        exact hall ⟨w, hw, Int.not_lt.mp hle⟩
      · rintro ⟨w, hw, hle⟩ ⟨_, hall⟩
        exact absurd (hall w hw) (Int.not_lt.mpr hle)

/-- What a committed scan did to each row. -/
theorem evaluateDue_rows {tenantId : Uuid} {dueAt : Instant} {limit n : Nat}
    (h : (evaluateDue tenantId dueAt limit).run s = .ok (n, s')) :
    List.Forall₂ (fun r r' =>
      (scanned s tenantId dueAt limit r.row = true ∧
        ∃ u, (dueRow s.config dueAt r.row).run r = .ok (u, r')) ∨
      (scanned s tenantId dueAt limit r.row = false ∧ r' = r)) s.records s'.records := by
  unfold evaluateDue at h
  rw [Transaction.get_bind, Transaction.bind_eq_ok] at h
  obtain ⟨_, s₁, hrows, h⟩ := h
  obtain ⟨_, rfl⟩ := Transaction.pure_eq_ok.mp h
  exact (forRows_ok hrows).2

/-- **In every run, a row that a scan has processed is no longer selected exactly if the scan
    settles it.** -/
theorem rescanned_iff {s₀ : Store} {ls : List SlaLabel} (hrun : Run SlaStep s₀ ls s)
    (h0 : s₀.records = []) (tenantId : Uuid) (dueAt : Instant) (limit : Nat) {n : Nat}
    (hscan : (evaluateDue tenantId dueAt limit).run s = .ok (n, s')) :
    List.Forall₂ (fun r r' => scanned s tenantId dueAt limit r.row = true →
      (Store.isDue tenantId dueAt r'.row = false ↔ Settles s.config r.row dueAt))
      s.records s'.records := by
  refine ((List.forall₂_and_left _ _).mpr ⟨kept_of_run hrun h0, evaluateDue_rows hscan⟩).imp ?_
  rintro r r' ⟨⟨hbreach, hwarning, hcounted⟩, hrow⟩ hscanned
  rcases hrow with ⟨_, u, hdone⟩ | ⟨hno, _⟩
  · exact dueRow_settles_iff hbreach hwarning hcounted (Bool.and_eq_true_iff.mp hscanned).1 hdone
  · rw [hscanned] at hno
    cases hno

/-- A scan of the sample tenant and what it makes of the selection. -/
def scanOutcome (s : Store) (dueAt : Instant) : Option (List (Bool × Bool)) :=
  match (evaluateDue 5 dueAt 10).run s with
  | .ok (_, s') => some ((s.records.zip s'.records).map fun (r, r') =>
      (scanned s 5 dueAt 10 r.row, Store.isDue 5 dueAt r'.row))
  | .error _ => none

theorem scanOutcome_ok {dueAt : Instant} {outcome : List (Bool × Bool)}
    (h : scanOutcome s dueAt = some outcome) :
    ∃ n s', (evaluateDue 5 dueAt 10).run s = .ok (n, s') ∧
      (s.records.zip s'.records).map (fun (r, r') =>
        (scanned s 5 dueAt 10 r.row, Store.isDue 5 dueAt r'.row)) = outcome := by
  unfold scanOutcome at h
  split at h
  · rename_i n s' hscan
    exact ⟨n, s', hscan, Option.some.inj h⟩
  · cases h

/-- The target of a minute is used up when the scan comes. -/
theorem rescanned_iff_sample :
    ∃ (s s' : Store) (n : Nat), (evaluateDue 5 (60 * second) 10).run s = .ok (n, s') ∧
      (∃ pair ∈ s.records.zip s'.records, scanned s 5 (60 * second) 10 pair.1.row = true ∧
        Store.isDue 5 (60 * second) pair.2.row = false) ∧
      List.Forall₂ (fun r r' => scanned s 5 (60 * second) 10 r.row = true →
        (Store.isDue 5 (60 * second) r'.row = false ↔ Settles s.config r.row (60 * second)))
        s.records s'.records := by
  have hrun : Run SlaStep sampleStore [.input (sampleEvent 1 .startSla 0)]
      (execute Store.next sampleStore [.input (sampleEvent 1 .startSla 0)]) :=
    sampleRun (by simp)
  have houtcome : scanOutcome (execute Store.next sampleStore [.input (sampleEvent 1 .startSla 0)])
      (60 * second) = some [(true, false)] := by
    decide +kernel
  obtain ⟨n, s', hscan, hpairs⟩ := scanOutcome_ok houtcome
  refine ⟨_, s', n, hscan, ?_, rescanned_iff hrun rfl 5 (60 * second) 10 hscan⟩
  obtain ⟨pair, hpair, hvalue⟩ := List.mem_map.mp (hpairs ▸ List.mem_singleton_self (true, false))
  exact ⟨pair, hpair, Prod.mk.inj hvalue⟩

theorem high_pos : (0 : Int) < 2 := by decide

theorem low_pos : (0 : Int) < 10 := by decide

theorem high_warning : ∀ w ∈ some (1 : Int), 0 ≤ w := by simp

theorem low_warning : ∀ w ∈ (none : Option Int), 0 ≤ w := by simp

/-- Two minutes with a warning one minute before for high priority, ten minutes without a
    warning for low priority. -/
def priorityStore : Store :=
  { sampleStore with
    config := { sampleConfig with
      goalVersions :=
        [⟨true, 30, 31, 21, 7, 1, .published, none, none,
            .dict [("priority_code", .str "HIGH")], 2, some 1, 100, high_pos, high_warning⟩,
         ⟨true, 32, 33, 21, 7, 1, .published, none, none,
            .dict [("priority_code", .str "LOW")], 10, none, 200, low_pos, low_warning⟩] } }

/-- The ticket is no longer urgent. -/
def lowTickets : List TicketRow := [⟨9, 5, 6, none, "INCIDENT", "LOW", 1, 100, 0, none, none⟩]

/-- The row was started under the first goal and is switched to the second half a minute
    later, before the warning it was started with. -/
def switchedStore : Store :=
  ((priorityStore.next (.input (sampleEvent 1 .startSla 0))).next
    (.outside lowTickets priorityStore.config)).next
      (.input (sampleEvent 2 .ticketPriorityChanged 30))

/-- **A row that is selected again and again**: its goal has no warning, but it kept the
    `warning_at` of the goal before. -/
theorem selected_again :
    ¬ ∀ (s₀ s s' : Store) (ls : List SlaLabel) (tenantId : Uuid) (dueAt : Instant) (limit n : Nat),
      Run SlaStep s₀ ls s → s₀.records = [] →
      (evaluateDue tenantId dueAt limit).run s = .ok (n, s') →
      List.Forall₂ (fun r r' => scanned s tenantId dueAt limit r.row = true →
        Store.isDue tenantId dueAt r'.row = false) s.records s'.records := by
  intro hclaim
  have hkeeps : (priorityStore.next (.input (sampleEvent 1 .startSla 0))).config.Keeps
      priorityStore.config := by
    rw [show (priorityStore.next (.input (sampleEvent 1 .startSla 0))).config =
      priorityStore.config from rfl]
    exact .refl _
  have hrun : Run SlaStep priorityStore [.input (sampleEvent 1 .startSla 0),
      .outside lowTickets priorityStore.config, .input (sampleEvent 2 .ticketPriorityChanged 30)]
      switchedStore :=
    .next (.next (.next .start (.input _)) (.outside lowTickets hkeeps)) (.input _)
  have houtcome : scanOutcome switchedStore (60 * second) = some [(true, true)] := by
    decide +kernel
  obtain ⟨n, s', hscan, hpairs⟩ := scanOutcome_ok houtcome
  obtain ⟨pair, hpair, hvalue⟩ := List.mem_map.mp (hpairs ▸ List.mem_singleton_self (true, true))
  obtain ⟨hscanned, hdue⟩ := Prod.mk.inj hvalue
  have hno := (List.forall₂_iff_zip.mp (hclaim _ _ _ _ _ _ _ _ hrun rfl hscan)).2 hpair hscanned
  rw [hdue] at hno
  cases hno

end Helpdesk.Sla
