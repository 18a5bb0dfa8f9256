/-
  File:      Helpdesk/Sla/Sampling.lean
  Subject:   The working seconds of an SLA and how often they are sampled
             (apps/api/app/sla/calendar.py, apps/api/app/sla/service.py).

  `business_seconds_between` cuts every interval of a date to whole seconds, and every scan
  moves the clock of a row to its own microsecond: what is left of a second on both sides of
  a scan is lost.

  * `splitsAt_iff`: counting in two parts counts the same exactly if the split loses nothing
    (`Seamless`), for every calendar and every instant between whose local dates are in order;
  * `sampled_alike`: and scans that lose nothing leave the seconds of a row as if there had
    been none.
-/
import Mathlib
import Helpdesk.Sla.CalendarLaws
import Helpdesk.Sla.Progress

namespace Helpdesk.Sla

open Helpdesk.Python Finset

/-! ## 1. Counting in two parts -/

/-- What `_local_boundary` raises. -/
def unresolvable : Failure := .calendar "Calendar contains an unresolvable local time."

theorem localBoundary_error {zone : ZoneInfo} {naive : LocalDatetime} {isEnd : Bool} {e : Failure}
    (h : localBoundary zone naive isEnd = .error e) : e = unresolvable := by
  have hprobe : ∀ {steps : Nat} {naive : LocalDatetime},
      probeBoundary zone steps naive = .error e → e = unresolvable := by
    intro steps
    induction steps with
    | zero => exact fun h => (Except.error.inj h).symm
    | succ steps ih =>
        intro naive h
        rw [probeBoundary] at h
        split at h
        · cases h
        · exact ih h
  unfold localBoundary at h
  split at h
  · exact hprobe h
  · cases h

namespace BusinessCalendar

variable {calendar : BusinessCalendar} {a b c : Int}

theorem intervals_error {date : Date} {e : Failure} (h : calendar.intervals date = .error e) :
    e = unresolvable := by
  unfold intervals at h
  split at h
  · rcases bind_eq_error.mp h with h | ⟨_, _, h⟩
    · exact localBoundary_error h
    · rcases bind_eq_error.mp h with h | ⟨_, _, h⟩
      · exact localBoundary_error h
      · cases h
  · split at h
    · cases h
    · rcases bind_eq_error.mp h with h | ⟨_, _, h⟩
      · obtain ⟨p, _, h⟩ := mapM_error h
        unfold resolvePeriod at h
        rcases bind_eq_error.mp h with h | ⟨_, _, h⟩
        · exact localBoundary_error h
        · rcases bind_eq_error.mp h with h | ⟨_, _, h⟩
          · exact localBoundary_error h
          · cases h
      · cases h

theorem betweenFrom_error {lower upper : Instant} {e : Failure} : ∀ {days : Nat} {date : Date},
    betweenFrom calendar lower upper days date = .error e → e = unresolvable
  | 0, _, h => nomatch h
  | days + 1, date, h => by
      rw [betweenFrom] at h
      rcases bind_eq_error.mp h with h | ⟨_, _, h⟩
      · exact intervals_error h
      · rcases bind_eq_error.mp h with h | ⟨_, _, h⟩
        · exact betweenFrom_error h
        · cases h

/-- The dates between two instants are resolved. -/
def Resolved (calendar : BusinessCalendar) (lower upper : Int) : Prop :=
  ∀ d : Int, calendar.timezone.localDate lower ≤ d → d ≤ calendar.timezone.localDate upper →
    ∃ is, calendar.intervals d = .ok is

/-- What the dates between two instants count. -/
noncomputable def counted (calendar : BusinessCalendar) (lower upper : Int) : Int :=
  ∑ d ∈ Ico (calendar.timezone.localDate lower) (calendar.timezone.localDate upper + 1),
    worked second lower upper (calendar.slots d)

theorem between_resolved {lower upper : Int} (hlt : lower < upper)
    (h : calendar.Resolved lower upper) :
    calendar.businessSecondsBetween lower upper = .ok (calendar.counted lower upper) := by
  unfold businessSecondsBetween
  rw [if_neg (Int.not_le.mpr hlt)]
  refine betweenFrom_ok.mpr ?_
  rw [Timeline.Ico_toNat]
  refine ⟨fun d hd => ?_, rfl⟩
  exact h d (mem_Ico.mp hd).1 (Int.le_of_lt_add_one (mem_Ico.mp hd).2)

theorem between_unresolved {lower upper : Int} (hlt : lower < upper)
    (h : ¬ calendar.Resolved lower upper) :
    calendar.businessSecondsBetween lower upper = .error unresolvable := by
  cases hresult : calendar.businessSecondsBetween lower upper with
  | error e =>
      unfold businessSecondsBetween at hresult
      rw [if_neg (Int.not_le.mpr hlt)] at hresult
      rw [betweenFrom_error hresult]
  | ok m =>
      exfalso
      unfold businessSecondsBetween at hresult
      rw [if_neg (Int.not_le.mpr hlt)] at hresult
      obtain ⟨hall, _⟩ := betweenFrom_ok.mp hresult
      rw [Timeline.Ico_toNat] at hall
      exact h fun d hd hd' => hall d (mem_Ico.mpr ⟨hd, Int.lt_add_one_of_le hd'⟩)

/-- Counting from `a` to `b` and on to `c` counts what is counted from `a` to `c`. -/
def SplitsAt (calendar : BusinessCalendar) (a b c : Int) : Prop :=
  (do return (← calendar.businessSecondsBetween a b) + (← calendar.businessSecondsBetween b c)) =
    calendar.businessSecondsBetween a c

/-- **A split that loses nothing**: in no interval do the fractions on both sides make a whole
    second, and the intervals of later dates have no second before the split, those of earlier
    dates none after it. -/
structure Seamless (calendar : BusinessCalendar) (a b c : Int) : Prop where
  carriesNone : ∀ d : Int, calendar.timezone.localDate a ≤ d → d ≤ calendar.timezone.localDate c →
    ∀ is, calendar.intervals d = .ok is → ∀ i ∈ is, max a i.1 < b → b < min c i.2 →
      (b - max a i.1) % second + (min c i.2 - b) % second < second
  laterDates : ∀ d : Int, calendar.timezone.localDate b < d → d ≤ calendar.timezone.localDate c →
    ∀ is, calendar.intervals d = .ok is → ∀ i ∈ is, min b i.2 < max a i.1 + second
  earlierDates : ∀ d : Int, calendar.timezone.localDate a ≤ d → d < calendar.timezone.localDate b →
    ∀ is, calendar.intervals d = .ok is → ∀ i ∈ is, min c i.2 < max b i.1 + second

/-- The local dates of three instants are in order. -/
def InDateOrder (calendar : BusinessCalendar) (a b c : Int) : Prop :=
  calendar.timezone.localDate a ≤ calendar.timezone.localDate b ∧
    calendar.timezone.localDate b ≤ calendar.timezone.localDate c

/-- What three sums of counts have to do with each other. -/
theorem counted_split (hab : a ≤ b) (hbc : b ≤ c) (hdates : calendar.InDateOrder a b c) :
    calendar.counted a c = calendar.counted a b + calendar.counted b c +
      ((∑ d ∈ Ico (calendar.timezone.localDate a) (calendar.timezone.localDate c + 1),
          lost second a b c (calendar.slots d)) +
        (∑ d ∈ Ico (calendar.timezone.localDate b + 1) (calendar.timezone.localDate c + 1),
          worked second a b (calendar.slots d)) +
        ∑ d ∈ Ico (calendar.timezone.localDate a) (calendar.timezone.localDate b),
          worked second b c (calendar.slots d)) := by
  obtain ⟨first, hfirst⟩ : ∃ d : Int, calendar.timezone.localDate a = d := ⟨_, rfl⟩
  obtain ⟨middle, hmiddle⟩ : ∃ d : Int, calendar.timezone.localDate b = d := ⟨_, rfl⟩
  obtain ⟨last, hlast⟩ : ∃ d : Int, calendar.timezone.localDate c = d := ⟨_, rfl⟩
  unfold InDateOrder at hdates
  unfold counted
  rw [hfirst, hmiddle, hlast] at hdates ⊢
  obtain ⟨(hle : first ≤ middle), (hle' : middle ≤ last)⟩ := hdates
  have hbefore := Timeline.sum_consecutive (f := fun d => worked second a b (calendar.slots d))
    (show first ≤ middle + 1 by omega) (show middle + 1 ≤ last + 1 by omega)
  have hafter := Timeline.sum_consecutive (f := fun d => worked second b c (calendar.slots d)) hle
    (show middle ≤ last + 1 by omega)
  have hall : ∑ d ∈ Ico first (last + 1), worked second a c (calendar.slots d) =
      ∑ d ∈ Ico first (last + 1), worked second a b (calendar.slots d) +
        ∑ d ∈ Ico first (last + 1), worked second b c (calendar.slots d) +
          ∑ d ∈ Ico first (last + 1), lost second a b c (calendar.slots d) := by
    rw [← sum_add_distrib, ← sum_add_distrib]
    exact sum_congr rfl fun d _ => (worked_split second_pos hab hbc).symm
  rw [hall, ← hbefore, ← hafter]
  ac_rfl

/-- What holds of the intervals of resolved dates, as what holds of their slots. -/
theorem forall_slots {P : Int → List Slot → Prop} {first last : Int}
    (h : ∀ d, first ≤ d → d < last → ∃ is, calendar.intervals d = .ok is) :
    (∀ d ∈ Ico first last, P d (calendar.slots d)) ↔
      ∀ d, first ≤ d → d < last → ∀ is, calendar.intervals d = .ok is → P d is := by
  constructor
  · intro hall d hd hd' is his
    rw [← slots_of_ok his]
    exact hall d (mem_Ico.mpr ⟨hd, hd'⟩)
  · intro hall d hd
    obtain ⟨hd, hd'⟩ := mem_Ico.mp hd
    obtain ⟨is, his⟩ := h d hd hd'
    rw [slots_of_ok his]
    exact hall d hd hd' is his

/-- Nothing that a split loses or counts twice. -/
theorem seamless_iff (hdates : calendar.InDateOrder a b c) (h : calendar.Resolved a c) :
    calendar.Seamless a b c ↔
      (∑ d ∈ Ico (calendar.timezone.localDate a) (calendar.timezone.localDate c + 1),
          lost second a b c (calendar.slots d)) = 0 ∧
        (∑ d ∈ Ico (calendar.timezone.localDate b + 1) (calendar.timezone.localDate c + 1),
          worked second a b (calendar.slots d)) = 0 ∧
        (∑ d ∈ Ico (calendar.timezone.localDate a) (calendar.timezone.localDate b),
          worked second b c (calendar.slots d)) = 0 := by
  obtain ⟨first, hfirst⟩ : ∃ d : Int, calendar.timezone.localDate a = d := ⟨_, rfl⟩
  obtain ⟨middle, hmiddle⟩ : ∃ d : Int, calendar.timezone.localDate b = d := ⟨_, rfl⟩
  obtain ⟨last, hlast⟩ : ∃ d : Int, calendar.timezone.localDate c = d := ⟨_, rfl⟩
  unfold InDateOrder at hdates
  unfold Resolved at h
  rw [hfirst, hlast] at h
  rw [hfirst, hmiddle, hlast] at hdates ⊢
  obtain ⟨(hle : first ≤ middle), (hle' : middle ≤ last)⟩ := hdates
  rw [sum_eq_zero_iff_of_nonneg fun _ _ => lost_nonneg,
    sum_eq_zero_iff_of_nonneg fun _ _ => worked_nonneg second_pos,
    sum_eq_zero_iff_of_nonneg fun _ _ => worked_nonneg second_pos,
    forall_slots (P := fun _ slots => lost second a b c slots = 0)
      fun d hd hd' => h d hd (Int.le_of_lt_add_one hd'),
    forall_slots (P := fun _ slots => worked second a b slots = 0)
      fun d hd hd' => h d (Int.le_trans hle (Int.le_of_lt hd)) (Int.le_of_lt_add_one hd'),
    forall_slots (P := fun _ slots => worked second b c slots = 0)
      fun d hd hd' => h d hd (Int.le_trans (Int.le_of_lt hd') hle')]
  simp only [lost_eq_zero_iff, carry_eq_zero_iff, worked_eq_zero_iff second_pos]
  constructor
  · rintro ⟨hcarries, hlater, hearlier⟩
    rw [hfirst, hlast] at hcarries
    rw [hmiddle, hlast] at hlater
    rw [hfirst, hmiddle] at hearlier
    exact ⟨fun d hd hd' => hcarries d hd (Int.le_of_lt_add_one hd'),
      fun d hd hd' => hlater d hd (Int.le_of_lt_add_one hd'), hearlier⟩
  · rintro ⟨hcarries, hlater, hearlier⟩
    refine ⟨?_, ?_, ?_⟩
    · rw [hfirst, hlast]
      exact fun d hd hd' => hcarries d hd (Int.lt_add_one_of_le hd')
    · rw [hmiddle, hlast]
      exact fun d hd hd' => hlater d hd (Int.lt_add_one_of_le hd')
    · rw [hfirst, hmiddle]
      exact hearlier

/-- **Counting in two parts**: it counts the same exactly if the split loses nothing, or if some
    date between is unresolvable and both raise. -/
theorem splitsAt_iff (hab : a ≤ b) (hbc : b ≤ c) (hdates : calendar.InDateOrder a b c) :
    calendar.SplitsAt a b c ↔ (calendar.Resolved a c → calendar.Seamless a b c) := by
  have hsame : a = b ∨ b = c → calendar.SplitsAt a b c ∧ calendar.Seamless a b c := by
    rintro (rfl | rfl)
    · refine ⟨?_, fun d _ _ is _ i _ hlt => absurd (Int.lt_of_le_of_lt (Int.le_max_left a i.1) hlt)
        (Int.lt_irrefl a), fun d _ _ is _ i _ => ?_, fun d hd hd' => absurd hd' (Int.not_lt.mpr hd)⟩
      · unfold SplitsAt
        rw [between_of_le (Int.le_refl a)]
        cases calendar.businessSecondsBetween a c with
        | error e => rfl
        | ok m => exact congrArg Except.ok (Int.zero_add m)
      · have hpos := second_pos
        omega
    · refine ⟨?_, fun d _ _ is _ i _ _ hlt => absurd (Int.lt_of_lt_of_le hlt (Int.min_le_left b i.2))
        (Int.lt_irrefl b), fun d hd hd' => absurd hd (Int.not_lt.mpr hd'), fun d _ _ is _ i _ => ?_⟩
      · unfold SplitsAt
        rw [between_of_le (Int.le_refl b)]
        cases calendar.businessSecondsBetween a b with
        | error e => rfl
        | ok m => exact congrArg Except.ok (Int.add_zero m)
      · have hpos := second_pos
        omega
  rcases Int.lt_or_eq_of_le hab with hab | rfl
  · rcases Int.lt_or_eq_of_le hbc with hbc | rfl
    · have hac := Int.lt_trans hab hbc
      by_cases hall : calendar.Resolved a c
      · -- both sides count
        have hfirst : calendar.Resolved a b := fun d hd hd' => hall d hd (Int.le_trans hd' hdates.2)
        have hlast : calendar.Resolved b c := fun d hd hd' => hall d (Int.le_trans hdates.1 hd) hd'
        have hsum := counted_split (Int.le_of_lt hab) (Int.le_of_lt hbc) hdates
        have hlost : 0 ≤ ∑ d ∈ Ico (calendar.timezone.localDate a) (calendar.timezone.localDate c + 1),
            lost second a b c (calendar.slots d) := sum_nonneg fun _ _ => lost_nonneg
        have hlater : 0 ≤ ∑ d ∈ Ico (calendar.timezone.localDate b + 1)
            (calendar.timezone.localDate c + 1), worked second a b (calendar.slots d) :=
          sum_nonneg fun _ _ => worked_nonneg second_pos
        have hearlier : 0 ≤ ∑ d ∈ Ico (calendar.timezone.localDate a)
            (calendar.timezone.localDate b), worked second b c (calendar.slots d) :=
          sum_nonneg fun _ _ => worked_nonneg second_pos
        rw [forall_prop_of_true hall, seamless_iff hdates hall]
        unfold SplitsAt
        rw [between_resolved hab hfirst, between_resolved hbc hlast, between_resolved hac hall, hsum]
        show Except.ok _ = Except.ok _ ↔ _
        rw [Except.ok.injEq]
        constructor
        · intro hequal
          omega
        · rintro ⟨hnone, hnone', hnone''⟩
          rw [hnone, hnone', hnone'']
          exact (Int.add_zero _).symm
      · -- both sides raise
        refine iff_of_true ?_ fun hno => absurd hno hall
        unfold SplitsAt
        rw [between_unresolved hac hall]
        by_cases hfirst : calendar.Resolved a b
        · have hlast : ¬ calendar.Resolved b c := by
            intro hlast
            refine hall fun d hd hd' => ?_
            rcases Int.le_total d (calendar.timezone.localDate b) with hle | hle
            · exact hfirst d hd hle
            · exact hlast d hle hd'
          rw [between_resolved hab hfirst, between_unresolved hbc hlast]
          rfl
        · rw [between_unresolved hab hfirst]
          rfl
    · exact iff_of_true (hsame (Or.inr rfl)).1 fun _ => (hsame (Or.inr rfl)).2
  · exact iff_of_true (hsame (Or.inl rfl)).1 fun _ => (hsame (Or.inl rfl)).2

/-- **At whole seconds nothing is lost**, where the hours keep to their dates. -/
theorem seamless_of_whole (hregular : calendar.Regular) (ha : second ∣ a) (hb : second ∣ b) :
    calendar.Seamless a b c where
  carriesNone d _ _ is his i hi _ _ := by
    have hstart : second ∣ max a i.1 := by
      rcases max_choice a i.1 with hmax | hmax <;> rw [hmax]
      exacts [ha, hregular.aligned his i hi]
    rw [Int.emod_eq_zero_of_dvd (Int.dvd_sub hb hstart), Int.zero_add]
    exact Int.emod_lt_of_pos _ second_pos
  laterDates d hd _ is his i hi := by
    have hafter := hregular.future d is b his hd i hi
    have hle := Int.le_trans (Int.min_le_left b i.2) (Int.le_trans hafter (Int.le_max_right a i.1))
    exact Int.lt_of_le_of_lt hle (Int.lt_add_of_pos_right _ second_pos)
  earlierDates d _ hd is his i hi := by
    have hbefore := hregular.past d is b his hd i hi
    have hle := Int.le_trans (Int.min_le_right c i.2) (Int.le_trans hbefore (Int.le_max_left b i.1))
    exact Int.lt_of_le_of_lt hle (Int.lt_add_of_pos_right _ second_pos)

end BusinessCalendar

/-! ## 2. Scans -/

/-- A row whose clock was moved, from which the same is counted by `at_`. -/
def SameWork (config : SlaConfig) (at_ : Instant) (v w : TicketSla) : Prop :=
  w.goal = v.goal ∧
    (w.elapsedWorkingSeconds = v.elapsedWorkingSeconds ∧ w.lastCalculatedAt = v.lastCalculatedAt ∨
      ∃ calendar, goalCalendar config v.goal = .ok calendar ∧
        v.lastCalculatedAt < w.lastCalculatedAt ∧ w.lastCalculatedAt ≤ at_ ∧
        (do return w.elapsedWorkingSeconds +
            (← calendar.businessSecondsBetween w.lastCalculatedAt at_)) =
          (do return v.elapsedWorkingSeconds +
            (← calendar.businessSecondsBetween v.lastCalculatedAt at_) : Except Failure Int))

theorem SameWork.counts {config : SlaConfig} {at_ : Instant} {v w : TicketSla}
    (h : SameWork config at_ v w) : workedBy config w at_ = workedBy config v at_ := by
  obtain ⟨hgoal, ⟨helapsed, hlast⟩ | ⟨calendar, hcalendar, hmoved, hle, hequal⟩⟩ := h
  · unfold workedBy
    rw [hgoal, helapsed, hlast]
  · have hv : workedBy config v at_ = (do return v.elapsedWorkingSeconds +
        (← calendar.businessSecondsBetween v.lastCalculatedAt at_) : Except Failure Int) := by
      unfold workedBy
      rw [if_neg (Int.not_le.mpr (Int.lt_of_lt_of_le hmoved hle)), hcalendar]
      rfl
    rw [hv, ← hequal]
    unfold workedBy
    split
    · rename_i hreached
      rw [BusinessCalendar.between_of_le hreached]
      exact congrArg Except.ok (Int.add_zero _).symm
    · rw [hgoal, hcalendar]
      rfl

section Scan

variable {config config' : SlaConfig} {r r' : SlaRecord} {at_ dueAt : Instant} {v w x : TicketSla}

theorem SameWork.refl (config : SlaConfig) (at_ : Instant) (v : TicketSla) :
    SameWork config at_ v v :=
  ⟨rfl, Or.inl ⟨rfl, rfl⟩⟩

theorem SameWork.trans (h : SameWork config at_ v w) (h' : SameWork config at_ w x) :
    SameWork config at_ v x := by
  obtain ⟨hgoal, hclock⟩ := h
  obtain ⟨hgoal', hclock'⟩ := h'
  refine ⟨hgoal'.trans hgoal, ?_⟩
  rcases hclock' with ⟨helapsed', hlast'⟩ | ⟨calendar', hcalendar', hmoved', hle', hequal'⟩
  · rw [helapsed', hlast']
    exact hclock
  · rw [hgoal] at hcalendar'
    rcases hclock with ⟨helapsed, hlast⟩ | ⟨calendar, hcalendar, hmoved, _, hequal⟩
    · rw [helapsed, hlast] at hequal'
      rw [hlast] at hmoved'
      exact Or.inr ⟨calendar', hcalendar', hmoved', hle', hequal'⟩
    · obtain rfl := Except.ok.inj (hcalendar.symm.trans hcalendar')
      exact Or.inr ⟨calendar, hcalendar, Int.lt_trans hmoved hmoved', hle', hequal'.trans hequal⟩

theorem SameWork.keeps (hkeeps : config.Keeps config') (h : SameWork config at_ v w) :
    SameWork config' at_ v w := by
  obtain ⟨hgoal, hclock | ⟨calendar, hcalendar, hrest⟩⟩ := h
  · exact ⟨hgoal, Or.inl hclock⟩
  · exact ⟨hgoal, Or.inr ⟨calendar, goalCalendar_keeps hkeeps hcalendar, hrest⟩⟩

/-- A scan that splits the time up to `at_` without a loss. -/
def LosesNothing (config : SlaConfig) (at_ : Instant) (sla : TicketSla) (dueAt : Instant) : Prop :=
  sla.lastCalculatedAt < dueAt → dueAt ≤ at_ ∧ ∀ calendar, goalCalendar config sla.goal = .ok calendar →
    calendar.InDateOrder sla.lastCalculatedAt dueAt at_ ∧
      (calendar.Resolved sla.lastCalculatedAt at_ → calendar.Seamless sla.lastCalculatedAt dueAt at_)

/-- The clock of a row after a scan that leaves it running. -/
theorem scan_clock (hscan : Writes config (DueWrite dueAt) r r') (hrunning : r'.row.state = .running) :
    r'.row.goal = r.row.goal ∧
      (r'.row.elapsedWorkingSeconds = r.row.elapsedWorkingSeconds ∧
          r'.row.lastCalculatedAt = r.row.lastCalculatedAt ∨
        r.row.lastCalculatedAt < dueAt ∧ r'.row.lastCalculatedAt = dueAt ∧
          ∃ calendar k, goalCalendar config r.row.goal = .ok calendar ∧
            calendar.businessSecondsBetween r.row.lastCalculatedAt dueAt = .ok k ∧
            r'.row.elapsedWorkingSeconds = r.row.elapsedWorkingSeconds + k) := by
  refine hscan.invariant (I := fun y => y.row.state = .running → y.row.goal = r.row.goal ∧
    (y.row.elapsedWorkingSeconds = r.row.elapsedWorkingSeconds ∧
        y.row.lastCalculatedAt = r.row.lastCalculatedAt ∨
      r.row.lastCalculatedAt < dueAt ∧ y.row.lastCalculatedAt = dueAt ∧
        ∃ calendar k, goalCalendar config r.row.goal = .ok calendar ∧
          calendar.businessSecondsBetween r.row.lastCalculatedAt dueAt = .ok k ∧
          y.row.elapsedWorkingSeconds = r.row.elapsedWorkingSeconds + k))
    (fun _ => ⟨rfl, Or.inl ⟨rfl, rfl⟩⟩) (fun y write y' hy hchange hwrite hstate => ?_) hrunning
  obtain ⟨hkind, hat⟩ := hwrite
  cases hchange with
  | advanced hbefore hlast hcurrent _ =>
      obtain rfl := hat
      obtain ⟨hgoal, hclock⟩ := hy hbefore
      rcases calculated_ok hcurrent with ⟨hstill, _⟩ | ⟨_, _, calendar, k, hcalendar, hk, rfl⟩
      · exact absurd (hstill.resolve_left (not_not.mpr hbefore)) (Int.not_le.mpr hlast)
      · rcases hclock with ⟨helapsed, hsame⟩ | ⟨_, hreached, _⟩
        · rw [hgoal] at hcalendar
          rw [hsame] at hk hlast
          refine ⟨hgoal, Or.inr ⟨hlast, rfl, calendar, k, hcalendar, hk, ?_⟩⟩
          show y.row.elapsedWorkingSeconds + k = _
          rw [helapsed]
        · rw [hreached] at hlast
          exact absurd hlast (Int.lt_irrefl _)
  | warned hbefore =>
      rw [SlaRecord.emit_row]
      exact hy hbefore
  | breached =>
      rw [SlaRecord.emit_row] at hstate
      cases hstate
  | breachedOnReopen =>
      rw [SlaRecord.emit_row] at hstate
      cases hstate
  | noted => rcases hkind with hkind | hkind | hkind <;> cases hkind
  | paused => rcases hkind with hkind | hkind | hkind <;> cases hkind
  | resumed => rcases hkind with hkind | hkind | hkind <;> cases hkind
  | stopped => rcases hkind with hkind | hkind | hkind <;> cases hkind
  | reopened => rcases hkind with hkind | hkind | hkind <;> cases hkind
  | recalculated => rcases hkind with hkind | hkind | hkind <;> cases hkind

/-- **One scan** that loses nothing leaves what is counted by `at_`. -/
theorem scan_sameWork (hscan : Writes config (DueWrite dueAt) r r')
    (hrunning : r'.row.state = .running) (hsmooth : LosesNothing config at_ r.row dueAt) :
    SameWork config at_ r.row r'.row := by
  obtain ⟨hgoal, hclock | ⟨hlast, hreached, calendar, k, hcalendar, hk, helapsed⟩⟩ :=
    scan_clock hscan hrunning
  · exact ⟨hgoal, Or.inl hclock⟩
  · obtain ⟨hle, hseamless⟩ := hsmooth hlast
    obtain ⟨hdates, hseamless⟩ := hseamless calendar hcalendar
    have hsplit := (BusinessCalendar.splitsAt_iff (Int.le_of_lt hlast) hle hdates).mpr hseamless
    refine ⟨hgoal, Or.inr ⟨calendar, hcalendar, hreached.symm ▸ hlast, hreached.symm ▸ hle, ?_⟩⟩
    rw [hreached, helapsed, ← hsplit, hk]
    cases calendar.businessSecondsBetween dueAt at_ with
    | error e => rfl
    | ok m => exact congrArg Except.ok (Int.add_assoc _ _ _)

end Scan

/-! ## 3. Runs -/

/-- Scans, each of which loses nothing on the rows that it selects, and what other services do
    in between. -/
def SmoothScan (at_ : Instant) (s : Store) : SlaLabel → Prop
  | .due tenantId dueAt limit => ∀ r ∈ s.records, scanned s tenantId dueAt limit r.row = true →
      LosesNothing s.config at_ r.row dueAt
  | .outside _ _ => True
  | .input _ => False

/-- **Scans that lose nothing**: what is counted on a row by `at_`, as long as no scan breaches it,
    is what would be counted without them. -/
theorem scans_sameWork {s₀ s s' : Store} {ls scans : List SlaLabel} {at_ : Instant}
    (hrun : Run SlaStep s₀ ls s) (h0 : s₀.records = [])
    (hscans : Run (Guarded (SmoothScan at_) SlaStep) s scans s') :
    List.Forall₂ (fun r r' => r'.row.state = .running →
      r.row.state = .running ∧ SameWork s'.config at_ r.row r'.row) s.records s'.records := by
  induction hscans with
  | start => exact List.forall₂_same.mpr fun r _ hstate => ⟨hstate, .refl _ _ _⟩
  | @next ls' s₁ s₂ l hbefore hstep ih =>
      have hkept : ∀ r ∈ s₁.records, BreachKept r :=
        records_kept (hrun.append hbefore.unguarded) h0
      obtain ⟨hkeeps, old, new, hrecords, hold, hnew⟩ := step_records hkept hstep.2
      have hnone : new = [] := by
        refine List.eq_nil_iff_forall_not_mem.mpr fun r hr => ?_
        obtain ⟨event, _, rfl, _⟩ := hnew r hr
        exact hstep.1
      rw [hrecords, hnone, List.append_nil]
      have hscan := (List.forall₂_and_left _ _).mpr ⟨fun r (hr : r ∈ s₁.records) => hr, hold⟩
      refine forall₂_compose (fun r r₁ r₂ hr hwrites hstate => ?_) ih hscan
      obtain ⟨hmem, hwrites⟩ := hwrites
      cases l with
      | input event => exact hstep.1.elim
      | outside tickets config =>
          obtain rfl := hwrites.eq_of_none fun _ hno => hno
          exact ⟨(hr hstate).1, (hr hstate).2.keeps hkeeps⟩
      | due tenantId dueAt limit =>
          by_cases hselected : scanned s₁ tenantId dueAt limit r₁.row = true
          · have hrunning := isDue_running (Bool.and_eq_true_iff.mp hselected).1
            have hsame := scan_sameWork (hwrites.mono fun _ hw => hw.2) hstate
              (hstep.1 r₁ hmem hselected)
            exact ⟨(hr hrunning).1, ((hr hrunning).2.trans hsame).keeps hkeeps⟩
          · obtain rfl := hwrites.eq_of_none fun _ hw => hselected hw.1
            exact ⟨(hr hstate).1, (hr hstate).2.keeps hkeeps⟩

def alwaysOpen : BusinessCalendar where
  version := ⟨7, 70, "UTC", true, [], []⟩
  timezone := .utc
  periods := fun _ => []
  exceptions := fun _ => []

def warnedRows (scans : List SlaLabel) : List (Except Failure Int) :=
  let s := execute Store.next priorityStore (.input (sampleEvent 1 .startSla 0) :: scans)
  s.records.map fun r => workedBy s.config r.row (61 * second)

end Helpdesk.Sla
