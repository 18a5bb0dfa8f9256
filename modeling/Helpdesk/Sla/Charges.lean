/-
  File:      Helpdesk/Sla/Charges.lean
  Subject:   Which seconds a row is charged, and how often.

  A save moves the clock of a row from one version to the next. What it charges is
  read off the two versions: a running row is charged the working time from its
  old clock to its new one, a resumed row the pause from `paused_at` to the
  resumption. `_calculated` does not run backwards, but the operations that use
  it overwrite `last_calculated_at` (a pause: `paused_at`) with the event's own
  time afterwards, so an event older than the clock reopens a stretch of time
  that is already charged.

  * `charges_account`: in every run the charges of a row add up to its
    `elapsed_working_seconds` and its `accumulated_pause_seconds`;
  * `InOrder`: no step writes to a row at a time before the row's clock;
  * `seconds_charged_once`: in every run whose steps meet it the clock never
    decreases and no instant lies in two charges;
  * `seconds_charged_twice`: both fail when a scan runs ahead of an event.
-/
import Helpdesk.Sla.Shape

namespace Helpdesk.Sla

open Helpdesk.Python

variable {config config' : SlaConfig} {r r' : SlaRecord}

/-! ## 1. The charges of a row -/

inductive Account where
  | elapsed | pause
  deriving DecidableEq, Repr

/-- The stretch `[from_, upto)` charged to an account, under the goal the row had. -/
structure Charge where
  account : Account
  goal : SlaGoalVersion
  from_ : Instant
  upto : Instant

/-- What saving `w` over `v` charges. -/
def charged (v w : TicketSla) : List Charge :=
  match v.state, w.state, v.pausedAt with
  | .running, _, _ => [⟨.elapsed, v.goal, v.lastCalculatedAt, w.lastCalculatedAt⟩]
  | .paused, .running, some pausedAt => [⟨.pause, v.goal, pausedAt, w.lastCalculatedAt⟩]
  | _, _, _ => []

/-- The charges of a history of versions. -/
def charges : List TicketSla → List Charge
  | v :: w :: rest => charged v w ++ charges (w :: rest)
  | _ => []

def Charge.covers (c : Charge) (t : Instant) : Prop := c.from_ ≤ t ∧ t < c.upto

instance (c : Charge) (t : Instant) : Decidable (c.covers t) :=
  inferInstanceAs (Decidable (_ ∧ _))

/-- The seconds of a charge: working seconds of the goal's calendar, or plain ones. -/
def Charge.seconds (config : SlaConfig) (c : Charge) : Except Failure Int :=
  if c.upto ≤ c.from_ then .ok 0
  else match c.account with
  | .elapsed => do (← goalCalendar config c.goal).businessSecondsBetween c.from_ c.upto
  | .pause => .ok (wholeSeconds (c.upto - c.from_))

/-- The seconds charged to one account. -/
def totalSeconds (config : SlaConfig) (account : Account) : List Charge → Except Failure Int
  | [] => .ok 0
  | c :: cs =>
      if c.account = account then do
        return (← c.seconds config) + (← totalSeconds config account cs)
      else totalSeconds config account cs

theorem charges_append (v w : TicketSla) :
    ∀ vs, charges (vs ++ [v] ++ [w]) = charges (vs ++ [v]) ++ charged v w
  | [] => by simp [charges]
  | [u] => by simp [charges]
  | u :: u' :: vs => by
      have ih := charges_append v w (u' :: vs)
      simp only [List.cons_append, charges, List.append_assoc] at ih ⊢
      rw [ih]

theorem totalSeconds_append {account : Account} {b : Int} {ds : List Charge}
    (hb : totalSeconds config account ds = .ok b) :
    ∀ {cs : List Charge} {a : Int}, totalSeconds config account cs = .ok a →
      totalSeconds config account (cs ++ ds) = .ok (a + b)
  | [], a, ha => by
      obtain rfl := Except.ok.inj ha
      rw [List.nil_append, hb, Int.zero_add]
  | c :: cs, a, ha => by
      rw [totalSeconds] at ha
      rw [List.cons_append, totalSeconds]
      split at ha
      · rename_i haccount
        simp only [bind_eq_ok, pure_eq_ok] at ha
        obtain ⟨k, hk, m, hm, rfl⟩ := ha
        rw [if_pos haccount, hk, totalSeconds_append hb hm]
        simp only [bind_eq_ok, pure_eq_ok]
        exact ⟨k, rfl, m + b, rfl, by omega⟩
      · rename_i haccount
        rw [if_neg haccount]
        exact totalSeconds_append hb ha

theorem totalSeconds_single {c : Charge} {k : Int} (hk : c.seconds config = .ok k)
    (account : Account) :
    totalSeconds config account [c] = .ok (if c.account = account then k else 0) := by
  rw [totalSeconds, totalSeconds, hk]
  split
  · simp only [bind_eq_ok, pure_eq_ok]
    exact ⟨k, rfl, 0, rfl, Int.add_zero k⟩
  · rfl

/-! ## 2. The charges are the accounts -/

theorem charged_running {v w : TicketSla} (h : v.state = .running) :
    charged v w = [⟨.elapsed, v.goal, v.lastCalculatedAt, w.lastCalculatedAt⟩] := by
  unfold charged
  rw [h]

theorem charged_resumed {v w : TicketSla} {pausedAt : Instant} (hv : v.state = .paused)
    (hw : w.state = .running) (hpaused : v.pausedAt = some pausedAt) :
    charged v w = [⟨.pause, v.goal, pausedAt, w.lastCalculatedAt⟩] := by
  unfold charged
  rw [hv, hw, hpaused]

/-- A row that does not run is charged at its resumption only. -/
theorem charged_still {v w : TicketSla} (hv : v.state ≠ .running)
    (hw : v.state = .paused → w.state ≠ .running) : charged v w = [] := by
  unfold charged
  split
  · rename_i hrunning
    exact absurd hrunning hv
  · rename_i hpaused hrunning _
    exact absurd hrunning (hw hpaused)
  · rfl

/-- The charge of a running row is what `_calculated` adds. -/
theorem calculated_seconds {v current : TicketSla} {at_ upto : Instant}
    (hstate : v.state = .running) (hcurrent : calculated config v at_ = .ok current)
    (hupto : upto = current.lastCalculatedAt ∨ upto = at_) :
    Charge.seconds config ⟨.elapsed, v.goal, v.lastCalculatedAt, upto⟩ =
      .ok (current.elapsedWorkingSeconds - v.elapsedWorkingSeconds) := by
  unfold Charge.seconds
  rcases calculated_ok hcurrent with ⟨hstill, rfl⟩ | ⟨_, hlast, calendar, k, hcalendar, hk, rfl⟩
  · have hle : at_ ≤ current.lastCalculatedAt := hstill.resolve_left (not_not.mpr hstate)
    rw [if_pos (by rcases hupto with rfl | rfl; exacts [Int.le_refl _, hle]), Int.sub_self]
  · obtain rfl : upto = at_ := hupto.elim id id
    rw [if_neg (Int.not_le.mpr hlast)]
    show (do (← goalCalendar config v.goal).businessSecondsBetween v.lastCalculatedAt upto) = _
    rw [hcalendar]
    show calendar.businessSecondsBetween v.lastCalculatedAt upto = _
    rw [hk]
    show Except.ok k = .ok (v.elapsedWorkingSeconds + k - v.elapsedWorkingSeconds)
    congr 1
    omega

/-- What a version adds to the two accounts of the one before it. -/
def Accounted (config : SlaConfig) (v w : TicketSla) : Prop :=
  totalSeconds config .elapsed (charged v w) =
      .ok (w.elapsedWorkingSeconds - v.elapsedWorkingSeconds) ∧
    totalSeconds config .pause (charged v w) =
      .ok (w.accumulatedPauseSeconds - v.accumulatedPauseSeconds)

theorem Accounted.running {v w : TicketSla} (hv : v.state = .running)
    (hseconds : Charge.seconds config ⟨.elapsed, v.goal, v.lastCalculatedAt, w.lastCalculatedAt⟩ =
      .ok (w.elapsedWorkingSeconds - v.elapsedWorkingSeconds))
    (hpause : w.accumulatedPauseSeconds = v.accumulatedPauseSeconds) : Accounted config v w := by
  unfold Accounted
  rw [charged_running hv, totalSeconds_single hseconds, totalSeconds_single hseconds, hpause,
    Int.sub_self]
  exact ⟨rfl, rfl⟩

theorem Accounted.still {v w : TicketSla} (hv : v.state ≠ .running)
    (hw : v.state = .paused → w.state ≠ .running)
    (helapsed : w.elapsedWorkingSeconds = v.elapsedWorkingSeconds)
    (hpause : w.accumulatedPauseSeconds = v.accumulatedPauseSeconds) : Accounted config v w := by
  unfold Accounted
  rw [charged_still hv hw, helapsed, hpause, Int.sub_self, Int.sub_self]
  exact ⟨rfl, rfl⟩

/-- A save after `_calculated`, of a row in any state: only a running one is charged. -/
theorem Accounted.calculated {v w current : TicketSla} {at_ : Instant}
    (hcurrent : calculated config v at_ = .ok current)
    (hupto : w.lastCalculatedAt = current.lastCalculatedAt ∨ w.lastCalculatedAt = at_)
    (helapsed : w.elapsedWorkingSeconds = current.elapsedWorkingSeconds)
    (hpause : w.accumulatedPauseSeconds = v.accumulatedPauseSeconds)
    (hw : v.state = .paused → w.state ≠ .running) : Accounted config v w := by
  by_cases hv : v.state = .running
  · refine .running hv ?_ hpause
    rw [calculated_seconds hv hcurrent hupto, helapsed]
  · rw [calculated_still (Or.inl hv)] at hcurrent
    rw [← Except.ok.inj hcurrent] at helapsed
    exact .still hv hw helapsed hpause

/-- **Every change charges what it adds to the accounts.** -/
theorem Change.accounted {w : Write} (hc : Change config r w r') :
    Accounted config r.row r'.row := by
  cases hc with
  | noted hevent hkey hnew =>
      by_cases hstate : r.row.state = .running
      · exact .running hstate (by simp [Charge.seconds]) rfl
      · exact .still hstate (fun _ => hstate) rfl rfl
  | advanced hstate hlast hcurrent hchecks =>
      obtain ⟨_, _, _, rfl⟩ := calculated_frame hcurrent
      refine .calculated hcurrent (Or.inl rfl) rfl rfl fun hpaused => ?_
      rw [hstate] at hpaused
      cases hpaused
  | warned hstate hnone hgoal hnew hmessage hchecks =>
      rw [SlaRecord.emit_row]
      exact .running hstate (by simp [Charge.seconds, SlaRecord.update]) rfl
  | breached hstate hcurrent hused hnew hmessage hchecks =>
      rw [SlaRecord.emit_row]
      obtain ⟨_, _, _, rfl⟩ := calculated_frame hcurrent
      exact .calculated hcurrent (Or.inr rfl) rfl rfl fun _ => nofun
  | breachedOnReopen hstate hused hnew hmessage hchecks =>
      rw [SlaRecord.emit_row]
      exact .still (by rw [hstate]; decide) (fun _ => nofun) rfl rfl
  | paused hstate hcurrent hnew hchecks =>
      obtain ⟨_, _, _, rfl⟩ := calculated_frame hcurrent
      exact .calculated hcurrent (Or.inl rfl) rfl rfl fun _ => nofun
  | resumed hstate hpaused hcalendar htarget hwarning hnew hsla hchecks =>
      rename_i at_ pausedAt _ _ _ _ _ _
      subst hsla
      have hseconds : Charge.seconds config ⟨.pause, r.row.goal, pausedAt, at_⟩ =
          .ok (max 0 (wholeSeconds (at_ - pausedAt))) := by
        unfold Charge.seconds
        split
        · rename_i hle
          have hle : at_ ≤ pausedAt := hle
          rw [max_eq_left (wholeSeconds_nonpos (Int.sub_nonpos_of_le hle))]
        · rename_i hlt
          have hlt : pausedAt < at_ := Int.not_le.mp hlt
          rw [max_eq_right (wholeSeconds_nonneg (Int.sub_nonneg_of_le (Int.le_of_lt hlt)))]
      unfold Accounted
      rw [charged_resumed hstate rfl hpaused]
      refine ⟨(totalSeconds_single hseconds _).trans ?_, (totalSeconds_single hseconds _).trans ?_⟩
      · congr 1
        show 0 = r.row.elapsedWorkingSeconds - r.row.elapsedWorkingSeconds
        omega
      · congr 1
        show max 0 (wholeSeconds (at_ - pausedAt)) = r.row.accumulatedPauseSeconds +
          max 0 (wholeSeconds (at_ - pausedAt)) - r.row.accumulatedPauseSeconds
        omega
  | stopped hopen hstate hcurrent hleft hnew hchecks =>
      rw [SlaRecord.metIfCompleted_row]
      rename_i at_ current _ _ _
      refine .calculated hcurrent (Or.inr rfl) rfl ?_ fun _ hrunning => ?_
      · obtain ⟨_, _, _, rfl⟩ := calculated_frame hcurrent
        rfl
      · rcases stoppedRow_state current at_ with h | h <;> exact nomatch hrunning.symm.trans h
  | reopened hstate hcalendar hremaining hleft htarget hwarning hnew hsla hchecks =>
      subst hsla
      exact .still (by rw [hstate]; decide) (fun hno => nomatch hstate.symm.trans hno) rfl rfl
  | recalculated hstate hcurrent hcalendar hremaining htarget hwarning hnew hsla hchecks =>
      subst hsla
      refine .calculated hcurrent (Or.inr rfl) rfl ?_ fun hpaused hrunning => ?_
      · obtain ⟨_, _, _, rfl⟩ := calculated_frame hcurrent
        rfl
      · obtain ⟨_, _, _, rfl⟩ := calculated_frame hcurrent
        exact nomatch hpaused.symm.trans hrunning

/-- The accounts of a row are the charges of its history. -/
structure Balanced (config : SlaConfig) (r : SlaRecord) : Prop where
  current : ∃ vs, r.versions = vs ++ [r.row]
  elapsed : totalSeconds config .elapsed (charges r.versions) = .ok r.row.elapsedWorkingSeconds
  pause : totalSeconds config .pause (charges r.versions) = .ok r.row.accumulatedPauseSeconds

theorem Balanced.created {row : TicketSla} (helapsed : row.elapsedWorkingSeconds = 0)
    (hpause : row.accumulatedPauseSeconds = 0) : Balanced config (.created row) :=
  ⟨⟨[], rfl⟩, congrArg Except.ok helapsed.symm, congrArg Except.ok hpause.symm⟩

theorem Balanced.change {w : Write} (h : Balanced config r) (hc : Change config r w r') :
    Balanced config r' := by
  rcases hc.versions with ⟨hrow, hversions⟩ | ⟨_, hversions⟩
  · refine ⟨?_, ?_, ?_⟩ <;> rw [hversions, hrow]
    exacts [h.current, h.elapsed, h.pause]
  · obtain ⟨vs, hvs⟩ := h.current
    obtain ⟨helapsed, hpause⟩ := hc.accounted
    have hcharges : charges r'.versions = charges r.versions ++ charged r.row r'.row := by
      rw [hversions, hvs]
      exact charges_append _ _ vs
    refine ⟨⟨r.versions, hversions⟩, ?_, ?_⟩
    · rw [hcharges, totalSeconds_append helapsed h.elapsed]
      congr 1
      omega
    · rw [hcharges, totalSeconds_append hpause h.pause]
      congr 1
      omega

theorem totalSeconds_keeps {account : Account} (hkeeps : config.Keeps config') :
    ∀ {cs : List Charge} {k : Int}, totalSeconds config account cs = .ok k →
      totalSeconds config' account cs = .ok k
  | [], _, h => h
  | c :: cs, k, h => by
      rw [totalSeconds] at h ⊢
      split at h
      · rename_i haccount
        rw [if_pos haccount]
        simp only [bind_eq_ok, pure_eq_ok] at h ⊢
        obtain ⟨m, hm, n, hn, rfl⟩ := h
        refine ⟨m, ?_, n, totalSeconds_keeps hkeeps hn, rfl⟩
        unfold Charge.seconds at hm ⊢
        split at hm
        · rename_i hempty
          rw [if_pos hempty]
          exact hm
        · rename_i hsome
          rw [if_neg hsome]
          split at hm
          · rename_i hkind
            simp only [bind_eq_ok] at hm ⊢
            obtain ⟨calendar, hcalendar, hm⟩ := hm
            exact ⟨calendar, goalCalendar_keeps hkeeps hcalendar, hm⟩
          · exact hm
      · rename_i haccount
        rw [if_neg haccount]
        exact totalSeconds_keeps hkeeps h

theorem Balanced.keeps (hkeeps : config.Keeps config') (h : Balanced config r) :
    Balanced config' r :=
  ⟨h.current, totalSeconds_keeps hkeeps h.elapsed, totalSeconds_keeps hkeeps h.pause⟩

/-! ## 3. The order of the charges -/

/-- The instant from which nothing is charged yet. -/
def frontier (sla : TicketSla) : Instant :=
  match sla.state, sla.pausedAt with
  | .paused, some pausedAt => pausedAt
  | _, _ => sla.lastCalculatedAt

theorem frontier_unpaused {sla : TicketSla} (h : sla.state ≠ .paused) :
    frontier sla = sla.lastCalculatedAt := by
  unfold frontier
  split
  · rename_i hpaused _
    exact absurd hpaused h
  · rfl

theorem frontier_paused {sla : TicketSla} {pausedAt : Instant} (h : sla.state = .paused)
    (hat : sla.pausedAt = some pausedAt) : frontier sla = pausedAt := by
  unfold frontier
  rw [h, hat]

theorem frontier_none {sla : TicketSla} (h : sla.pausedAt = none) :
    frontier sla = sla.lastCalculatedAt := by
  unfold frontier
  rw [h]
  cases sla.state <;> rfl

/-- The pause of a row does not start after its clock. -/
def PausedBefore (sla : TicketSla) : Prop := frontier sla ≤ sla.lastCalculatedAt

/-- A version that follows another: the clock does not go back, and what the save
    charges lies between the two frontiers. -/
structure Follows (v w : TicketSla) : Prop where
  clock : v.lastCalculatedAt ≤ w.lastCalculatedAt
  frontier : frontier v ≤ frontier w
  charged : ∀ c ∈ charged v w, Sla.frontier v ≤ c.from_ ∧ c.upto ≤ Sla.frontier w

/-- After a save that leaves the row unpaused and its clock at `w.last`. -/
theorem Follows.unpaused {v w : TicketSla} (hv : PausedBefore v)
    (hclock : v.lastCalculatedAt ≤ w.lastCalculatedAt) (hw : w.state ≠ .paused) :
    Follows v w := by
  have hfrontier : Sla.frontier w = w.lastCalculatedAt := frontier_unpaused hw
  refine ⟨hclock, ?_, fun c hc => ?_⟩
  · rw [hfrontier]
    exact Int.le_trans hv hclock
  · rw [hfrontier]
    unfold Sla.charged at hc
    split at hc
    · rename_i hrunning
      rw [List.mem_singleton.mp hc]
      exact ⟨Int.le_of_eq (frontier_unpaused (by rw [hrunning]; decide)), Int.le_refl _⟩
    · rename_i hpaused _ hat
      rw [List.mem_singleton.mp hc]
      unfold Sla.frontier
      rw [hpaused, hat]
      exact ⟨Int.le_refl _, Int.le_refl _⟩
    · exact absurd hc List.not_mem_nil

/-- After a save that pauses a running row at its clock, or leaves a row paused. -/
theorem Follows.paused {v w : TicketSla} (hclock : v.lastCalculatedAt ≤ w.lastCalculatedAt)
    (hfrontier : Sla.frontier v ≤ Sla.frontier w)
    (hv : v.state = .running → w.lastCalculatedAt ≤ Sla.frontier w) (hw : w.state = .paused) :
    Follows v w := by
  refine ⟨hclock, hfrontier, fun c hc => ?_⟩
  unfold Sla.charged at hc
  split at hc
  · rename_i hrunning
    rw [List.mem_singleton.mp hc]
    exact ⟨Int.le_of_eq (frontier_unpaused (by rw [hrunning]; decide)), hv hrunning⟩
  · rename_i hrunning _
    rw [hw] at hrunning
    cases hrunning
  · exact absurd hc List.not_mem_nil

/-- A save that leaves a row paused since the same time. -/
theorem Follows.stillPaused {v w : TicketSla} (hbefore : PausedBefore v)
    (hv : v.state = .paused) (hw : w.state = .paused) (hat : w.pausedAt = v.pausedAt)
    (hclock : v.lastCalculatedAt ≤ w.lastCalculatedAt) : Follows v w ∧ PausedBefore w := by
  have hrunning : v.state ≠ .running := by
    rw [hv]
    decide
  cases hpaused : v.pausedAt with
  | none =>
      have hfrontier : Sla.frontier w = w.lastCalculatedAt := frontier_none (hat.trans hpaused)
      refine ⟨.paused hclock ?_ (fun hno => absurd hno hrunning) hw, Int.le_of_eq hfrontier⟩
      rw [hfrontier]
      exact Int.le_trans hbefore hclock
  | some pausedAt =>
      have hsame : Sla.frontier w = Sla.frontier v := by
        rw [frontier_paused hv hpaused, frontier_paused hw (hat.trans hpaused)]
      refine ⟨.paused hclock (Int.le_of_eq hsame.symm) (fun hno => absurd hno hrunning) hw, ?_⟩
      unfold PausedBefore
      rw [hsame]
      exact Int.le_trans hbefore hclock

/-- A save stamped at or after the clock of the row; a warning does not move the clock. -/
def Timely (sla : TicketSla) (w : Write) : Prop :=
  w.kind = .noted ∨ w.kind = .warned ∨ sla.lastCalculatedAt ≤ w.at_

/-- The clock computed to a time that is not before it. -/
theorem calculated_last {v current : TicketSla} {at_ : Instant}
    (hcurrent : calculated config v at_ = .ok current) (hstate : v.state = .running)
    (hat : v.lastCalculatedAt ≤ at_) : current.lastCalculatedAt = at_ := by
  rcases calculated_ok hcurrent with ⟨hstill, rfl⟩ | ⟨_, _, _, _, _, _, rfl⟩
  · exact Int.le_antisymm hat (hstill.resolve_left (not_not.mpr hstate))
  · rfl

/-- **Every timely save follows the row**, and leaves its pause before its clock. -/
theorem Change.follows {w : Write} (hbefore : PausedBefore r.row)
    (hc : Change config r w r') (hsaves : w.kind ≠ .noted) (hw : Timely r.row w) :
    Follows r.row r'.row ∧ PausedBefore r'.row := by
  have hclock : w.kind ≠ .warned → r.row.lastCalculatedAt ≤ w.at_ :=
    fun hwarned => (hw.resolve_left hsaves).resolve_left hwarned
  have hunpaused : r.row.lastCalculatedAt ≤ r'.row.lastCalculatedAt → r'.row.state ≠ .paused →
      Follows r.row r'.row ∧ PausedBefore r'.row := by
    intro hlast hstate
    exact ⟨.unpaused hbefore hlast hstate, Int.le_of_eq (frontier_unpaused hstate)⟩
  cases hc with
  | noted hevent hkey hnew => exact absurd rfl hsaves
  | advanced hstate hlast hcurrent hchecks =>
      refine hunpaused ?_ ?_
      · show _ ≤ TicketSla.lastCalculatedAt _
        rw [SlaRecord.put_row]
        show r.row.lastCalculatedAt ≤ _
        exact Int.le_trans (hclock nofun) (Int.le_of_eq (calculated_last hcurrent hstate
          (hclock nofun)).symm)
      · obtain ⟨_, _, _, rfl⟩ := calculated_frame hcurrent
        show r.row.state ≠ .paused
        rw [hstate]
        decide
  | warned hstate hnone hgoal hnew hmessage hchecks =>
      rw [SlaRecord.emit_row] at hunpaused ⊢
      refine hunpaused (Int.le_refl _) ?_
      show r.row.state ≠ .paused
      rw [hstate]
      decide
  | breached hstate hcurrent hused hnew hmessage hchecks =>
      rw [SlaRecord.emit_row] at hunpaused ⊢
      exact hunpaused (hclock nofun) nofun
  | breachedOnReopen hstate hused hnew hmessage hchecks =>
      rw [SlaRecord.emit_row] at hunpaused ⊢
      exact hunpaused (hclock nofun) nofun
  | paused hstate hcurrent hnew hchecks =>
      rename_i at_ current _ _
      have hlast : current.lastCalculatedAt = at_ := calculated_last hcurrent hstate (hclock nofun)
      have hbefore' : r.row.lastCalculatedAt ≤ current.lastCalculatedAt := by
        rw [hlast]
        exact hclock nofun
      refine ⟨.paused hbefore' ?_ (fun _ => Int.le_of_eq hlast) rfl, Int.le_of_eq hlast.symm⟩
      exact Int.le_trans hbefore (hclock nofun)
  | resumed hstate hpaused hcalendar htarget hwarning hnew hsla hchecks =>
      subst hsla
      exact hunpaused (hclock nofun) nofun
  | stopped hopen hstate hcurrent hleft hnew hchecks =>
      rename_i at_ current _ _ _
      rw [SlaRecord.metIfCompleted_row] at hunpaused ⊢
      refine hunpaused (hclock nofun) fun hpaused => ?_
      rcases stoppedRow_state current at_ with h | h <;> exact nomatch hpaused.symm.trans h
  | reopened hstate hcalendar hremaining hleft htarget hwarning hnew hsla hchecks =>
      subst hsla
      exact hunpaused (hclock nofun) nofun
  | recalculated hstate hcurrent hcalendar hremaining htarget hwarning hnew hsla hchecks =>
      subst hsla
      by_cases hpaused : r.row.state = .paused
      · rw [calculated_still (Or.inl (by rw [hpaused]; decide))] at hcurrent
        obtain rfl := Except.ok.inj hcurrent
        exact Follows.stillPaused hbefore hpaused hpaused rfl (hclock nofun)
      · refine hunpaused (hclock nofun) ?_
        obtain ⟨_, _, _, rfl⟩ := calculated_frame hcurrent
        exact hpaused

theorem charged_pairwise {R : Charge → Charge → Prop} (v w : TicketSla) :
    (charged v w).Pairwise R := by
  unfold charged
  split
  · exact List.pairwise_singleton _ _
  · exact List.pairwise_singleton _ _
  · exact .nil

/-- **The charges of a row lie one after the other**, the last before its frontier. -/
structure Ordered (r : SlaRecord) : Prop where
  current : ∃ vs, r.versions = vs ++ [r.row]
  before : PausedBefore r.row
  clock : r.versions.Pairwise fun v w => v.lastCalculatedAt ≤ w.lastCalculatedAt
  charges : (charges r.versions).Pairwise fun c d => c.upto ≤ d.from_
  reached : ∀ c ∈ Sla.charges r.versions, c.upto ≤ frontier r.row

theorem Ordered.created {row : TicketSla} (hstate : row.state = .running) :
    Ordered (.created row) where
  current := ⟨[], rfl⟩
  before := Int.le_of_eq (frontier_unpaused (by rw [SlaRecord.created, hstate]; decide))
  clock := List.pairwise_singleton _ _
  charges := .nil
  reached := fun c hc => absurd hc List.not_mem_nil

/-- **A timely change keeps the order.** -/
theorem Ordered.change {w : Write} (h : Ordered r) (hc : Change config r w r')
    (hw : Timely r.row w) : Ordered r' := by
  rcases hc.versions with ⟨hrow, hversions⟩ | ⟨_, hversions⟩
  · refine ⟨?_, ?_, ?_, ?_, ?_⟩ <;> simp only [hversions, hrow]
    exacts [h.current, h.before, h.clock, h.charges, h.reached]
  · have hsaves : w.kind ≠ .noted := by
      intro hno
      cases hc with
      | noted => exact absurd (congrArg List.length hversions) (by simp)
      | _ => cases hno
    obtain ⟨hfollows, hbefore⟩ := hc.follows h.before hsaves hw
    obtain ⟨vs, hvs⟩ := h.current
    have hlast : ∀ v ∈ r.versions, v.lastCalculatedAt ≤ r.row.lastCalculatedAt := by
      intro v hv
      have hclock := h.clock
      rw [hvs] at hv hclock
      rcases List.mem_append.mp hv with hv | hv
      · exact (List.pairwise_append.mp hclock).2.2 v hv _ (List.mem_singleton_self _)
      · rw [List.mem_singleton.mp hv]
    have hcharges : Sla.charges r'.versions =
        Sla.charges r.versions ++ charged r.row r'.row := by
      rw [hversions, hvs]
      exact charges_append _ _ vs
    refine ⟨⟨r.versions, hversions⟩, hbefore, ?_, ?_, ?_⟩
    · rw [hversions, List.pairwise_append]
      refine ⟨h.clock, List.pairwise_singleton _ _, fun v hv w hw => ?_⟩
      rw [List.mem_singleton.mp hw]
      exact Int.le_trans (hlast v hv) hfollows.clock
    · rw [hcharges, List.pairwise_append]
      refine ⟨h.charges, charged_pairwise _ _, fun c hc d hd => ?_⟩
      exact Int.le_trans (h.reached c hc) (hfollows.charged d hd).1
    · intro c hc
      rw [hcharges] at hc
      rcases List.mem_append.mp hc with hc | hc
      · exact Int.le_trans (h.reached c hc) hfollows.frontier
      · exact (hfollows.charged c hc).2

/-! ## 4. Every run -/

/-- **No step writes to a row at a time before the row's clock.** -/
def InOrder (s : Store) : SlaLabel → Prop
  | .input event => ∀ ticket, s.ticket event.tenantId event.ticketId = some ticket →
      ∀ r ∈ s.records, Store.ofTicket ticket.tenantId ticket.ticketId r.row = true →
        ∀ action, rowAction s ticket event r.row = .ok action →
          RowIdle s.config event r action ∨ r.row.lastCalculatedAt ≤ action.stamp event
  | .due tenantId dueAt limit => ∀ r ∈ s.records, scanned s tenantId dueAt limit r.row = true →
      r.row.lastCalculatedAt ≤ dueAt ∨ 0 < r.row.remainingWorkingSeconds
  | .outside _ _ => True

/-- The clock after a change is its stamp, where the row's clock was not past it. -/
theorem Change.last_le {w : Write} {stamp : Instant} (hc : Change config r w r')
    (hw : w.kind = .noted ∨ w.at_ = stamp) (hlast : r.row.lastCalculatedAt ≤ stamp) :
    r'.row.lastCalculatedAt ≤ stamp := by
  have hcalculated : ∀ {at_ : Instant} {current : TicketSla},
      calculated config r.row at_ = .ok current → at_ ≤ stamp →
      current.lastCalculatedAt ≤ stamp := by
    intro at_ current hcurrent hat
    rcases calculated_ok hcurrent with ⟨_, rfl⟩ | ⟨_, _, _, _, _, _, rfl⟩
    · exact hlast
    · exact hat
  have hstamp : w.kind ≠ .noted → w.at_ ≤ stamp := fun hno => Int.le_of_eq (hw.resolve_left hno)
  cases hc with
  | noted => exact hlast
  | advanced hstate hbehind hcurrent hchecks =>
      have hle := hcalculated hcurrent (hstamp nofun)
      exact hle
  | warned =>
      rw [SlaRecord.emit_row]
      exact hlast
  | breached =>
      rw [SlaRecord.emit_row]
      exact hstamp nofun
  | breachedOnReopen =>
      rw [SlaRecord.emit_row]
      exact hstamp nofun
  | paused hstate hcurrent hnew hchecks =>
      have hle := hcalculated hcurrent (hstamp nofun)
      exact hle
  | resumed hstate hpaused hcalendar htarget hwarning hnew hsla hchecks =>
      subst hsla
      exact hstamp nofun
  | stopped =>
      rw [SlaRecord.metIfCompleted_row]
      exact hstamp nofun
  | reopened hstate hcalendar hremaining hleft htarget hwarning hnew hsla hchecks =>
      subst hsla
      exact hstamp nofun
  | recalculated hstate hcurrent hcalendar hremaining htarget hwarning hnew hsla hchecks =>
      subst hsla
      exact hstamp nofun

/-- A chain of writes with one stamp, on a row whose clock is not past it. -/
theorem Ordered.writes {P : Write → Prop} {stamp : Instant} (h : Ordered r)
    (hlast : r.row.lastCalculatedAt ≤ stamp)
    (hP : ∀ w, P w → w.kind = .noted ∨ w.at_ = stamp) (hw : Writes config P r r') :
    Ordered r' := by
  refine (hw.invariant (I := fun r => Ordered r ∧ r.row.lastCalculatedAt ≤ stamp)
    ⟨h, hlast⟩ ?_).1
  intro r w r' hr hc hPw
  have htimely : Timely r.row w := by
    rcases hP w hPw with hk | hat
    · exact Or.inl hk
    · exact Or.inr (Or.inr (hat ▸ hr.2))
  exact ⟨hr.1.change hc htimely, hc.last_le (hP w hPw) hr.2⟩

/-- A scan at a time before the clock of a row that has target left: only a warning. -/
theorem Ordered.scanned_early {dueAt : Instant} (h : Ordered r) (hstate : r.row.state = .running)
    (hlast : dueAt < r.row.lastCalculatedAt) (hleft : 0 < r.row.remainingWorkingSeconds)
    (hw : Writes config (DueWrite dueAt) r r') : Ordered r' := by
  refine (hw.invariant (I := fun r => Ordered r ∧ r.row.state = .running ∧
    dueAt < r.row.lastCalculatedAt ∧ 0 < r.row.remainingWorkingSeconds)
    ⟨h, hstate, hlast, hleft⟩ ?_).1
  intro r w r' hr hc hdue
  obtain ⟨hordered, hrunning, hlast, hleft⟩ := hr
  obtain ⟨hkind, hat⟩ := hdue
  have hwarned : w.kind = .warned → Ordered r' :=
    fun hk => hordered.change hc (Or.inr (Or.inl hk))
  cases hc with
  | advanced hstate hbehind hcurrent hchecks =>
      obtain rfl := hat
      exact absurd hbehind (Int.not_lt.mpr (Int.le_of_lt hlast))
  | warned hstate hnone hgoal hnew hmessage hchecks =>
      refine ⟨hwarned rfl, ?_⟩
      rw [SlaRecord.emit_row]
      exact ⟨hrunning, hlast, hleft⟩
  | breached hstate hcurrent hused hnew hmessage hchecks =>
      obtain rfl := hat
      rw [calculated_still (Or.inr (Int.le_of_lt hlast))] at hcurrent
      rw [← Except.ok.inj hcurrent] at hused
      exact absurd hleft (Int.not_lt.mpr hused)
  | breachedOnReopen hstate hused hnew hmessage hchecks =>
      exact nomatch hrunning.symm.trans hstate
  | _ => rcases hkind with hk | hk | hk <;> cases hk

/-- The table lets no pause, breach or completion stand before the start of its row. -/
theorem Change.started_le {w : Write} (hc : Change config r w r')
    (hk : w.kind = .paused ∨ w.kind = .breached ∨ w.kind = .stopped) :
    r.row.startedAt ≤ w.at_ := by
  have hcheck : ∀ {sla : TicketSla} {at_ : Instant}, Checked r sla →
      sla.pausedAt = some at_ ∨ sla.breachedAt = some at_ ∨ sla.completedAt = some at_ →
      r.row.startedAt ≤ at_ := by
    intro sla at_ hchecked hat
    have htemporal := hchecked.1
    simp only [SlaRecord.temporalCheck, SlaRecord.update, Bool.and_eq_true] at htemporal
    obtain ⟨⟨⟨hpaused, hcompleted⟩, hbreached⟩, _⟩ := htemporal
    rcases hat with hat | hat | hat
    · rw [hat] at hpaused
      exact of_decide_eq_true hpaused
    · rw [hat] at hbreached
      exact of_decide_eq_true hbreached
    · rw [hat] at hcompleted
      exact of_decide_eq_true hcompleted
  cases hc with
  | breached hstate hcurrent hused hnew hmessage hchecks =>
      exact hcheck hchecks (Or.inr (Or.inl rfl))
  | breachedOnReopen hstate hused hnew hmessage hchecks =>
      exact hcheck hchecks (Or.inr (Or.inl rfl))
  | paused hstate hcurrent hnew hchecks => exact hcheck hchecks (Or.inl rfl)
  | stopped hopen hstate hcurrent hleft hnew hchecks =>
      exact hcheck hchecks (Or.inr (Or.inr rfl))
  | _ => rcases hk with hk | hk | hk <;> cases hk

/-- A record a start creates. -/
theorem Ordered.start {ticket : TicketFacts} (h : NewRecord config ticket r) : Ordered r := by
  cases h with
  | @created _ _ _ _ _ stamp _ _ hgoal hcalendar htarget hwarning hw =>
  refine (hw.invariant (I := fun r => Ordered r ∧
    (r.row.lastCalculatedAt ≤ r.row.startedAt ∨ r.row.lastCalculatedAt ≤ stamp))
    ⟨.created rfl, Or.inl (Int.le_refl _)⟩ ?_).1
  intro r w r' hr hc hstart
  rcases hstart with ⟨hk, _⟩ | ⟨hat, hk⟩
  · refine ⟨hr.1.change hc (Or.inl hk), ?_⟩
    cases hc with
    | noted => exact hr.2
    | _ => cases hk
  · have hstarted : r.row.startedAt ≤ stamp := by
      rw [← hat]
      refine hc.started_le ?_
      rcases hk with ⟨hk, _⟩ | ⟨hk, _⟩
      · exact Or.inl hk
      · exact Or.inr hk
    have hlast : r.row.lastCalculatedAt ≤ stamp :=
      hr.2.elim (fun hle => Int.le_trans hle hstarted) id
    exact ⟨hr.1.change hc (Or.inr (Or.inr (hat ▸ hlast))),
      Or.inr (hc.last_le (Or.inr hat) hlast)⟩

/-- **The charges of a row are its accounts**, in every run. -/
theorem charges_account {s₀ s : Store} {ls : List SlaLabel} (hrun : Run SlaStep s₀ ls s)
    (h0 : s₀.records = []) : ∀ r ∈ s.records, Balanced s.config r := by
  have hguarded : Run (Guarded (fun _ _ => True) SlaStep) s₀ ls s :=
    hrun.mono fun _ _ _ hs => ⟨trivial, hs⟩
  intro r hr
  refine (records_invariant (I := Balanced) hguarded h0 ?_ ?_ ?_ r hr).2
  · exact fun hkeeps h => h.keeps hkeeps
  · intro s l r _ hcreates
    obtain ⟨_, _, _, _, _, hnew⟩ := hcreates
    obtain ⟨_, _, _, _, hw⟩ := hnew
    exact hw.invariant (I := Balanced s.config) (.created rfl rfl) fun _ _ _ h hc _ => h.change hc
  · intro s l r r' _ _ h hw
    exact hw.invariant h fun _ _ _ h hc _ => h.change hc

/-- **Every second is charged once**, in every run whose steps are in order: the clock
    of a row never goes back, and no instant lies in two of its charges, which are
    all it is charged. -/
theorem seconds_charged_once {s₀ s : Store} {ls : List SlaLabel}
    (hrun : Run (Guarded InOrder SlaStep) s₀ ls s) (h0 : s₀.records = []) :
    ∀ r ∈ s.records,
      r.versions.Pairwise (fun v w => v.lastCalculatedAt ≤ w.lastCalculatedAt) ∧
      (charges r.versions).Pairwise (fun c d => ∀ t, ¬ (c.covers t ∧ d.covers t)) ∧
      totalSeconds s.config .elapsed (charges r.versions) = .ok r.row.elapsedWorkingSeconds ∧
      totalSeconds s.config .pause (charges r.versions) = .ok r.row.accumulatedPauseSeconds := by
  intro r hr
  have hbalanced := charges_account hrun.unguarded h0 r hr
  have hordered : Ordered r := by
    refine (records_invariant (I := fun _ r => Ordered r) hrun h0 ?_ ?_ ?_ r hr).2
    · exact fun _ h => h
    · intro s l r _ hcreates
      obtain ⟨_, _, _, _, _, hnew⟩ := hcreates
      exact .start hnew
    · intro s l r r' hguard hr h hw
      cases l with
      | input event =>
          -- a step with a label to write is timely; without one there is nothing to write
          by_cases hsome : ∃ w, StepWrite s (.input event) r w
          · obtain ⟨w, ticket, action, hticket, hof, haction, hbusy, _⟩ := hsome
            have hlast := (hguard ticket hticket r hr hof action haction).resolve_left hbusy
            refine h.writes hlast (fun w hw => Or.inr ?_) hw
            obtain ⟨ticket', action', hticket', _, haction', _, hat, _⟩ := hw
            rw [hticket] at hticket'
            cases hticket'
            rw [haction] at haction'
            cases haction'
            exact hat
          · rw [hw.eq_of_none (not_exists.mp hsome)]
            exact h
      | due tenantId dueAt limit =>
          by_cases hsome : ∃ w, StepWrite s (.due tenantId dueAt limit) r w
          · obtain ⟨w, hscanned, _⟩ := hsome
            by_cases hlast : r.row.lastCalculatedAt ≤ dueAt
            · exact h.writes hlast (fun w hw => Or.inr hw.2.2) hw
            · have hleft := (hguard r hr hscanned).resolve_left hlast
              have hrunning := isDue_running (Bool.and_eq_true_iff.mp hscanned).1
              exact h.scanned_early hrunning (Int.not_le.mp hlast) hleft
                (hw.mono fun w hw => hw.2)
          · rw [hw.eq_of_none (not_exists.mp hsome)]
            exact h
      | outside tickets config =>
          rw [hw.eq_of_none fun _ hno => hno]
          exact h
  refine ⟨hordered.clock, hordered.charges.imp ?_, hbalanced.elapsed, hbalanced.pause⟩
  intro c d hcd t ht
  exact absurd (Int.lt_of_lt_of_le ht.1.2 hcd) (Int.not_lt.mpr ht.2.1)

/-- The sample tenant with a target of two minutes and a warning a minute before it. -/
def warnedStore : Store :=
  { sampleStore with
    config := { sampleConfig with
      goalVersions := [⟨true, 30, 31, 21, 7, 1, .published, none, none, .dict [], 2, some 1, 100,
        by decide, by simp⟩] } }

/-- A scan at 70 s runs before the event that happened at 50 s is processed: the
    resolution of the ticket, or a pause that ends at 80 s. -/
def lateLabels (late : List SlaLabel) : List SlaLabel :=
  [.input (sampleEvent 1 .startSla 0), .due 5 (70 * second) 10] ++ late

/-- **The clock goes back, and seconds are charged as work and as pause**, when a scan
    runs ahead of an event. -/
theorem seconds_charged_twice :
    (¬ ∀ (s₀ s : Store) (ls : List SlaLabel), Run SlaStep s₀ ls s → s₀.records = [] →
      ∀ r ∈ s.records,
        r.versions.Pairwise fun v w => v.lastCalculatedAt ≤ w.lastCalculatedAt) ∧
    (¬ ∀ (s₀ s : Store) (ls : List SlaLabel), Run SlaStep s₀ ls s → s₀.records = [] →
      ∀ r ∈ s.records,
        (charges r.versions).Pairwise fun c d => ∀ t, ¬ (c.covers t ∧ d.covers t)) := by
  refine ⟨fun h => ?_, fun h => ?_⟩
  · have hall := h warnedStore _ (lateLabels [.input (sampleTransition 2 "OPEN" "DONE" 50)])
      (sampleRun (by simp [lateLabels])) rfl
    have hsome : ∃ r ∈ (execute Store.next warnedStore
        (lateLabels [.input (sampleTransition 2 "OPEN" "DONE" 50)])).records,
        ¬ r.versions.Pairwise fun v w => v.lastCalculatedAt ≤ w.lastCalculatedAt := by
      decide +kernel
    obtain ⟨r, hr, hback⟩ := hsome
    exact hback (hall r hr)
  · have hall := h warnedStore _ (lateLabels [.input (sampleTransition 2 "OPEN" "WAITING" 50),
      .input (sampleTransition 3 "WAITING" "OPEN" 80)]) (sampleRun (by simp [lateLabels])) rfl
    have hsome : ∃ r ∈ (execute Store.next warnedStore
        (lateLabels [.input (sampleTransition 2 "OPEN" "WAITING" 50),
          .input (sampleTransition 3 "WAITING" "OPEN" 80)])).records,
        ¬ (charges r.versions).Pairwise fun c d =>
          ¬ (c.covers (60 * second) ∧ d.covers (60 * second)) := by
      decide +kernel
    obtain ⟨r, hr, htwice⟩ := hsome
    exact htwice ((hall r hr).imp fun hno => hno _)

/-- The sample ticket starts, and its priority changes after forty seconds. -/
theorem seconds_charged_once_sample :
    ((execute Store.next sampleStore [.input (sampleEvent 1 .startSla 0),
        .input (sampleEvent 2 .ticketPriorityChanged 40)]).records.map
          fun r => (charges r.versions).length) = [1] ∧
      ∀ r ∈ (execute Store.next sampleStore [.input (sampleEvent 1 .startSla 0),
          .input (sampleEvent 2 .ticketPriorityChanged 40)]).records,
        r.versions.Pairwise fun v w => v.lastCalculatedAt ≤ w.lastCalculatedAt := by
  refine ⟨by decide +kernel, fun r hr => ?_⟩
  have hstart : InOrder sampleStore (.input (sampleEvent 1 .startSla 0)) :=
    fun _ _ r hr => absurd hr List.not_mem_nil
  have hchange : InOrder (sampleStore.next (.input (sampleEvent 1 .startSla 0)))
      (.input (sampleEvent 2 .ticketPriorityChanged 40)) := by
    intro ticket _ r hr _ action haction
    have hclocks : ∀ r ∈ (sampleStore.next (.input (sampleEvent 1 .startSla 0))).records,
        r.row.lastCalculatedAt ≤ 40 * second := by
      decide +kernel
    cases haction
    exact Or.inr (hclocks r hr)
  exact (seconds_charged_once (.next (.next .start ⟨hstart, .input _⟩) ⟨hchange, .input _⟩) rfl
    r hr).1

end Helpdesk.Sla
