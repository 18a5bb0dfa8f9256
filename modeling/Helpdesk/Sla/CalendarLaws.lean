/-
  File:      Helpdesk/Sla/CalendarLaws.lean
  Subject:   Adding business seconds and counting them.

  The laws of the two functions (`Laws`): what is added is counted, the instant reached is
  the least one, and it may be reached in two steps. They need the hours of a date to keep
  to the date; a bound inside a gap of the local clock is moved to the first whole minute
  from it that the clock shows, which need not be the first instant after the gap.

  * `regular_of_orderly`: hours that keep to their dates make a calendar regular;
  * `orderly_of_minutes`: hours on whole minutes do so;
  * `laws_of_orderly`: then the laws hold, and they do not where hours go on inside a later date;
  * `laws_fail_after_gap`: hours that end in a gap before midnight.
-/
import Mathlib
import Helpdesk.Python.LocalTimes
import Helpdesk.Sla.WorkingTime

namespace Helpdesk.Sla

open Helpdesk.Python Finset

/-! ## 1. Hours that keep to their dates -/

/-- What a local time is resolved to shows it, or it was probed for. -/
theorem localBoundary_cases {zone : ZoneInfo} {naive x : Int} {isEnd : Bool}
    (h : localBoundary zone naive isEnd = .ok x) :
    zone.astimezone x = naive ∨
      (∀ fold, zone.astimezone (zone.toUtc fold naive) ≠ naive) ∧
        probeBoundary zone 180 naive = .ok x := by
  unfold localBoundary at h
  split at h
  · rename_i hnone
    refine .inr ⟨fun fold hshows => ?_, h⟩
    have hmem : zone.toUtc fold naive ∈ boundaryCandidates zone naive := by
      refine List.mem_filterMap.mpr ⟨fold, ?_, if_pos hshows⟩
      cases fold
      · exact List.mem_cons_self
      · exact List.mem_cons_of_mem _ List.mem_cons_self
    rw [hnone] at hmem
    exact absurd hmem List.not_mem_nil
  · rename_i first rest hcandidates
    have hall : ∀ y ∈ boundaryCandidates zone naive, zone.astimezone y = naive := by
      intro y hy
      obtain ⟨fold, _, hfold⟩ := List.mem_filterMap.mp hy
      dsimp only at hfold
      split at hfold
      · rename_i hshows
        rw [← Option.some.inj hfold, hshows]
      · cases hfold
    rw [hcandidates, List.forall_mem_cons] at hall
    left
    rw [← Except.ok.inj h]
    refine BusinessCalendar.foldl_choice (P := fun y => zone.astimezone y = naive)
      (fun x y => ?_) hall.1 hall.2
    cases isEnd
    · exact min_choice x y
    · exact max_choice x y

/-- What a local time is resolved to shows it, or a later time. -/
theorem localBoundary_shows {zone : ZoneInfo} {naive x : Int} {isEnd : Bool}
    (h : localBoundary zone naive isEnd = .ok x) : naive ≤ zone.astimezone x := by
  have hprobe : ∀ {steps : Nat} {naive : Int}, probeBoundary zone steps naive = .ok x →
      naive ≤ zone.astimezone x := by
    intro steps
    induction steps with
    | zero => exact fun h => nomatch h
    | succ steps ih =>
        intro naive h
        have hnext : naive ≤ naive + 60 * second := by
          unfold second
          omega
        rw [probeBoundary] at h
        split at h
        · rename_i hshows
          rw [← Except.ok.inj h, hshows]
          exact hnext
        · exact Int.le_trans hnext (ih h)
  rcases localBoundary_cases h with hshows | ⟨_, hprobed⟩
  · exact Int.le_of_eq hshows.symm
  · exact hprobe hprobed

namespace BusinessCalendar

variable {calendar : BusinessCalendar}

/-- The hours of a date that is not closed. -/
def hoursOf (calendar : BusinessCalendar) (date : Date) : List WorkingPeriod :=
  if (calendar.exceptions date).any fun item => item.exceptionType = .closed then []
  else calendar.periodsOf date

theorem intervals_eq (hhours : calendar.version.twentyFourSeven = false) (date : Date) :
    calendar.intervals date = (do
      let resolved ← (calendar.hoursOf date).mapM (calendar.resolvePeriod date)
      return mergeIntervals resolved) := by
  unfold intervals hoursOf
  rw [if_neg (Bool.eq_false_iff.mp hhours)]
  split
  · rfl
  · rfl

/-- **The hours of every date resolve, begin no earlier than its midnight and end no later
    than the instants of later dates.** Hours of which nothing is left do not count. -/
structure Orderly (calendar : BusinessCalendar) : Prop where
  resolved : ∀ date, ∀ p ∈ calendar.hoursOf date, ∃ i, calendar.resolvePeriod date p = .ok i
  begins : ∀ date, ∀ p ∈ calendar.hoursOf date, ∀ i x, calendar.resolvePeriod date p = .ok i →
    i.1 < i.2 → calendar.dayStart date = .ok x → x ≤ i.1
  ends : ∀ date, ∀ p ∈ calendar.hoursOf date, ∀ i x, calendar.resolvePeriod date p = .ok i →
    i.1 < i.2 → date < calendar.timezone.localDate x → i.2 ≤ x

/-- What holds of all hours of which something is left holds of the intervals. -/
theorem intervals_of_hours (hhours : calendar.version.twentyFourSeven = false)
    {P Q : Instant → Prop} (hmax : ∀ x y, Q x → Q y → Q (max x y)) {date : Date}
    {is : List Interval} (h : calendar.intervals date = .ok is)
    (hbounds : ∀ p ∈ calendar.hoursOf date, ∀ i, calendar.resolvePeriod date p = .ok i →
      i.1 < i.2 → P i.1 ∧ Q i.2) :
    ∀ i ∈ is, P i.1 ∧ Q i.2 := by
  rw [intervals_eq hhours] at h
  simp only [bind_eq_ok, pure_eq_ok] at h
  obtain ⟨resolved, hresolved, rfl⟩ := h
  refine mergeIntervals_bounds hmax fun i hi hopen => ?_
  obtain ⟨p, hp, hi⟩ := mem_of_forall₂ (mapM_pointwise hresolved) hi
  exact hbounds p hp i hi hopen

/-- Hours start on their date. -/
theorem le_localDate_start {date : Int} {p : WorkingPeriod} {i : Interval}
    (h : calendar.resolvePeriod date p = .ok i) : date ≤ calendar.timezone.localDate i.1 := by
  unfold resolvePeriod at h
  simp only [bind_eq_ok, pure_eq_ok] at h
  obtain ⟨start, hstart, _, _, rfl⟩ := h
  have hshows := ZoneInfo.dateOf_mono (localBoundary_shows hstart)
  refine Int.le_trans (Int.le_of_eq ?_) hshows
  have htime := p.startLocalTime.isLt
  show date = (date * 86400000000 + (p.startLocalTime.val : Int)) / 86400000000
  omega

/-- **Hours that keep to their dates make a calendar regular.** -/
theorem regular_of_orderly (hhours : calendar.version.twentyFourSeven = false)
    (hzone : calendar.timezone.FoldsWithinDates) (horderly : calendar.Orderly)
    (hwhole : ∀ date, ∀ p ∈ calendar.periodsOf date, second ∣ (p.startLocalTime.val : Int)) :
    calendar.Regular where
  whole := hwhole
  past date is x his hx := by
    have hall := intervals_of_hours hhours (P := fun _ => True) (Q := fun y => y ≤ x)
      (fun _ _ hx hy => max_le hx hy) his
      fun p hp i hi hopen => ⟨trivial, horderly.ends date p hp i x hi hopen hx⟩
    exact fun i hi => (hall i hi).2
  future date is x his hx := by
    have hall := intervals_of_hours hhours (P := fun y => date ≤ calendar.timezone.localDate y)
      (Q := fun _ => True) (fun _ _ _ _ => trivial) his
      fun p hp i hi _ => ⟨le_localDate_start hi, trivial⟩
    intro i hi
    by_contra hlt
    have hmono := hzone.localDate_mono (Int.le_of_lt (Int.not_le.mp hlt))
    exact absurd (Int.le_trans (hall i hi).1 hmono) (Int.not_le.mpr hx)
  first date is x his hx := by
    have hall := intervals_of_hours hhours (P := fun y => x ≤ y) (Q := fun _ => True)
      (fun _ _ _ _ => trivial) his
      fun p hp i hi hopen => ⟨horderly.begins date p hp i x hi hopen hx, trivial⟩
    exact fun i hi => (hall i hi).1

theorem Orderly.intervals_ok (hhours : calendar.version.twentyFourSeven = false)
    (horderly : calendar.Orderly) (date : Date) : ∃ is, calendar.intervals date = .ok is := by
  obtain ⟨resolved, hresolved⟩ := mapM_ok fun p hp => horderly.resolved date p hp
  rw [intervals_eq hhours, hresolved]
  exact ⟨_, rfl⟩

/-! ## 2. The laws -/

/-- What adding and counting from a whole second have to do with each other. -/
structure Laws (calendar : BusinessCalendar) : Prop where
  /-- what is added is counted -/
  counted : ∀ start n T : Int, second ∣ start → calendar.addBusinessSeconds start n = .ok T →
    calendar.businessSecondsBetween start T = .ok n
  /-- nothing earlier has as much -/
  least : ∀ start n T t : Int, second ∣ start → calendar.addBusinessSeconds start n = .ok T →
    0 < n → calendar.businessSecondsBetween start t = .ok n → T ≤ t
  /-- added in two steps -/
  twoSteps : ∀ start m n T : Int, second ∣ start → 0 ≤ m → 0 < n →
    calendar.addBusinessSeconds start (m + n) = .ok T →
    ∃ S, calendar.addBusinessSeconds start m = .ok S ∧ calendar.addBusinessSeconds S n = .ok T

theorem addBusinessSeconds_zero (start : Instant) :
    calendar.addBusinessSeconds start 0 = .ok start := rfl

theorem addBusinessSeconds_pos {start n : Int} (hn : 0 < n) :
    calendar.addBusinessSeconds start n =
      addFrom calendar maxSearchDays (calendar.timezone.localDate start) start n := by
  unfold addBusinessSeconds
  rw [if_neg (by omega), if_neg (by omega)]

theorem addBusinessSeconds_nonneg {start n T : Int}
    (h : calendar.addBusinessSeconds start n = .ok T) : 0 ≤ n := by
  unfold addBusinessSeconds at h
  split at h
  · cases h
  · rename_i hnonneg
    exact Int.not_lt.mp hnonneg

/-- **The dates that a walk has gone through**: they are resolved, and in the hours of the
    last one it ends. -/
theorem addFrom_resolved : ∀ {days : Nat} {date current T remaining : Int},
    addFrom calendar days date current remaining = .ok T → 0 < remaining →
    ∃ e, date ≤ e ∧ e < date + days ∧
      (∀ d, date ≤ d → d ≤ e → ∃ is, calendar.intervals d = .ok is) ∧
      (∀ d, date < d → d ≤ e → ∃ first, calendar.dayStart d = .ok first) ∧
      ∃ i ∈ calendar.slots e, i.1 < T ∧ T ≤ i.2
  | 0, _, _, _, _, h, _ => nomatch h
  | days + 1, date, current, T, remaining, h, hpositive => by
      rw [addFrom] at h
      simp only [bind_eq_ok] at h
      obtain ⟨is, his, h⟩ := h
      rw [consume_eq_walk] at h
      split at h
      · rename_i reached hwalk
        rw [pure_eq_ok] at h
        subst h
        obtain ⟨_, i, hi, hT⟩ := walk_reached second_pos (intervals_inSequence his) hpositive hwalk
        refine ⟨date, Int.le_refl _, by omega, fun d hd hd' => ?_, fun d hd hd' => ?_, i, ?_, hT⟩
        · obtain rfl : d = date := Int.le_antisymm hd' hd
          exact ⟨is, his⟩
        · exact absurd hd (Int.not_lt.mpr hd')
        · exact (slots_of_ok his).symm ▸ hi
      · rename_i left hwalk
        rw [bind_eq_ok] at h
        obtain ⟨first, hfirst, h⟩ := h
        obtain ⟨hleft, _⟩ := walk_left second_pos hpositive hwalk
        obtain ⟨e, hdate, hdays, hintervals, hmidnights, hend⟩ := addFrom_resolved h hleft
        refine ⟨e, by omega, by omega, fun d hd hd' => ?_, fun d hd hd' => ?_, hend⟩
        · rcases Int.lt_or_eq_of_le hd with hd | rfl
          · exact hintervals d (by omega) hd'
          · exact ⟨is, his⟩
        · rcases Int.lt_or_eq_of_le (show date + 1 ≤ d by omega) with hd | rfl
          · exact hmidnights d hd hd'
          · exact ⟨first, hfirst⟩

/-- **A walk ends** where the dates before it are resolved and have enough hours. -/
theorem addFrom_defined (hregular : calendar.Regular) {s u e : Int} :
    ∀ {days : Nat} {date current k : Int}, 0 < k → calendar.timezone.localDate s ≤ date →
      (∀ i ∈ calendar.slots date, max current i.1 = max s i.1) →
      (∀ d, date ≤ d → d ≤ e → ∃ is, calendar.intervals d = .ok is) →
      (∀ d, date < d → d ≤ e → ∃ first, calendar.dayStart d = .ok first) →
      e < date + days → k ≤ ∑ d ∈ Ico date (e + 1), worked second s u (calendar.slots d) →
      ∃ T, addFrom calendar days date current k = .ok T
  | 0, date, current, k, hk, _, _, _, _, hdays, hcount => by
      rw [Ico_eq_empty (by omega), sum_empty] at hcount
      omega
  | days + 1, date, current, k, hk, hdate, hcurrent, hintervals, hmidnights, hdays, hcount => by
      rcases Int.lt_or_le e date with hbefore | hlast
      · rw [Ico_eq_empty (by omega), sum_empty] at hcount
        omega
      · obtain ⟨is, his⟩ := hintervals date (Int.le_refl _) hlast
        rw [Timeline.sum_from (by omega), ← worked_congr hcurrent, slots_of_ok his] at hcount
        cases hwalk : walk second current k is with
        | inl T =>
            refine ⟨T, ?_⟩
            rw [addFrom, bind_eq_ok]
            refine ⟨is, his, ?_⟩
            rw [consume_eq_walk, hwalk]
            rfl
        | inr left =>
            obtain ⟨hleft, hle, _⟩ := walk_left second_pos hk hwalk
            have hhere := hle u
            have hrest : left ≤ ∑ d ∈ Ico (date + 1) (e + 1), worked second s u (calendar.slots d) := by
              omega
            have hnext : date + 1 ≤ e := by
              by_contra hover
              rw [Ico_eq_empty (by omega), sum_empty] at hrest
              omega
            obtain ⟨first, hfirst⟩ := hmidnights (date + 1) (by omega) hnext
            have hlater : calendar.timezone.localDate s < date + 1 := Int.lt_add_one_of_le hdate
            have hsame : ∀ i ∈ calendar.slots (date + 1), max first i.1 = max s i.1 := by
              intro i hi
              obtain ⟨is', his'⟩ := hintervals (date + 1) (by omega) hnext
              rw [slots_of_ok his'] at hi
              have hstart := hregular.first (date + 1) is' first his' hfirst i hi
              have hafter := hregular.future (date + 1) is' s his' hlater i hi
              rw [max_eq_right hstart, max_eq_right hafter]
            have hintervals' : ∀ d : Int, date + 1 ≤ d → d ≤ e →
                ∃ is, calendar.intervals d = .ok is :=
              fun d hd hd' => hintervals d (by omega) hd'
            have hmidnights' : ∀ d : Int, date + 1 < d → d ≤ e →
                ∃ first, calendar.dayStart d = .ok first :=
              fun d hd hd' => hmidnights d (by omega) hd'
            have hdays' : e < date + 1 + (days : Int) := by omega
            obtain ⟨T, hT⟩ := addFrom_defined hregular hleft (Int.le_of_lt hlater) hsame hintervals'
              hmidnights' hdays' hrest
            refine ⟨T, ?_⟩
            rw [addFrom, bind_eq_ok]
            refine ⟨is, his, ?_⟩
            rw [consume_eq_walk, hwalk]
            exact bind_eq_ok.mpr ⟨first, hfirst, hT⟩

theorem one_lt_second : 1 < second := by
  unfold second
  decide

theorem between_of_le {lower upper : Int} (h : upper ≤ lower) :
    calendar.businessSecondsBetween lower upper = .ok 0 := if_pos h

/-- What a walk of at least one second has counted, and the dates that it has gone through. -/
theorem add_walked (hregular : calendar.Regular) {start n T : Int} (hstart : second ∣ start)
    (hn : 0 < n) (h : calendar.addBusinessSeconds start n = .ok T) :
    start < T ∧ second ∣ T ∧ hregular.timeline.between start T = n ∧
      (∀ t, T ≤ t ↔ n ≤ hregular.timeline.between start t) ∧
      ∃ e, calendar.timezone.localDate start ≤ e ∧
        e < calendar.timezone.localDate start + maxSearchDays ∧
        (∀ d : Int, calendar.timezone.localDate start ≤ d → d ≤ e →
          ∃ is, calendar.intervals d = .ok is) ∧
        (∀ d : Int, calendar.timezone.localDate start < d → d ≤ e →
          ∃ first, calendar.dayStart d = .ok first) ∧
        ∃ i ∈ calendar.slots e, i.1 < T ∧ T ≤ i.2 := by
  rw [addBusinessSeconds_pos hn] at h
  have hreaches := addFrom_reaches hregular h
  have hcount := Timeline.between_reaches one_lt_second hreaches hstart hn
  have hdvd := Timeline.reaches_dvd hreaches fun i hi => by
    rcases max_choice start i.1 with hmax | hmax <;> rw [hmax]
    exacts [hstart, hregular.timeline.aligned _ i hi]
  obtain ⟨e, hfrom, hdays, hintervals, hmidnights, hend⟩ := addFrom_resolved h hn
  refine ⟨?_, hdvd, hcount, Timeline.reaches_iff hreaches hn, e, hfrom, hdays, hintervals,
    hmidnights, hend⟩
  by_contra hbefore
  rw [Timeline.between_empty (Int.not_lt.mp hbefore)] at hcount
  omega

/-- Until the instant that a walk reaches, only the dates it has gone through count. -/
theorem between_eq_walked (hregular : calendar.Regular) {s e T : Int} {i : Slot}
    (hT : second ∣ T) (hi : i ∈ calendar.slots e) (hafter : i.1 < T) (hinside : T ≤ i.2) :
    hregular.timeline.between s T =
      ∑ d ∈ Ico (calendar.timezone.localDate s) (e + 1), worked second s T (calendar.slots d) := by
  have hlast : e ≤ calendar.timezone.localDate T := hregular.timeline.le_date hi hafter
  refine (Finset.sum_subset (fun d hd => ?_) fun d hd hout => ?_).symm
  · have hwithin := Int.le_trans (Int.le_of_lt_add_one (mem_Ico.mp hd).2) hlast
    exact mem_Ico.mpr ⟨(mem_Ico.mp hd).1, Int.lt_add_one_of_le hwithin⟩
  · have hbeyond : e < d := by
      by_contra hle
      exact hout (mem_Ico.mpr ⟨(mem_Ico.mp hd).1, Int.lt_add_one_of_le (Int.not_lt.mp hle)⟩)
    exact worked_future fun j hj =>
      hregular.timeline.later_starts one_lt_second hT hbeyond hi hinside hj

/-- **In two steps**: the first part ends on a date that the whole goes through, and the second
    part finds the same hours from there. -/
theorem add_twoSteps (hregular : calendar.Regular) {start m n T : Int} (hstart : second ∣ start)
    (hm : 0 < m) (hn : 0 < n) (h : calendar.addBusinessSeconds start (m + n) = .ok T) :
    ∃ S, calendar.addBusinessSeconds start m = .ok S ∧ calendar.addBusinessSeconds S n = .ok T := by
  obtain ⟨_, hTwhole, hcountT, hleT, e, _, hdays, hintervals, hmidnights, i, hi, hafter, hinside⟩ :=
    add_walked hregular hstart (by omega) h
  have hsum : ∀ s : Int, hregular.timeline.between s T =
      ∑ d ∈ Ico (calendar.timezone.localDate s) (e + 1), worked second s T (calendar.slots d) :=
    fun s => between_eq_walked hregular hTwhole hi hafter hinside
  -- the first step
  have hfirst : ∃ S, calendar.addBusinessSeconds start m = .ok S := by
    rw [addBusinessSeconds_pos hm]
    have henough : m ≤ ∑ d ∈ Ico (calendar.timezone.localDate start) (e + 1),
        worked second start T (calendar.slots d) := by
      rw [← hsum start, hcountT]
      omega
    exact addFrom_defined hregular hm (Int.le_refl _) (fun _ _ => rfl) hintervals hmidnights hdays
      henough
  obtain ⟨S, hS⟩ := hfirst
  obtain ⟨hstartS, hSwhole, hcountS, hleS, f, hf, _, _, _, j, hj, hafterS, _⟩ :=
    add_walked hregular hstart hm hS
  have hST : S ≤ T := (hleS T).mpr (by omega)
  have hcount : hregular.timeline.between S T = n := by
    have hadd : hregular.timeline.between start S + hregular.timeline.between S T =
        hregular.timeline.between start T :=
      Timeline.between_add (Int.le_of_lt hstartS) hST hstart hSwhole
    omega
  have hbefore : S < T := by
    rcases Int.lt_or_eq_of_le hST with hlt | rfl
    · exact hlt
    · omega
  -- the second step begins on a date that has been gone through
  have hfrom : calendar.timezone.localDate start ≤ calendar.timezone.localDate S :=
    Int.le_trans hf (hregular.timeline.le_date hj hafterS)
  have hsecond : ∃ T', calendar.addBusinessSeconds S n = .ok T' := by
    rw [addBusinessSeconds_pos hn]
    have henough : n ≤ ∑ d ∈ Ico (calendar.timezone.localDate S) (e + 1),
        worked second S T (calendar.slots d) := by
      rw [← hsum S, hcount]
    exact addFrom_defined hregular hn (Int.le_refl _) (fun _ _ => rfl)
      (fun d hd hd' => hintervals d (Int.le_trans hfrom hd) hd')
      (fun d hd hd' => hmidnights d (Int.lt_of_le_of_lt hfrom hd) hd')
      (Int.lt_of_lt_of_le hdays (Int.add_le_add_right hfrom _)) henough
  obtain ⟨T', hT'⟩ := hsecond
  refine ⟨S, hS, ?_⟩
  rw [hT']
  obtain ⟨hST', _, hcount', hleT', _⟩ := add_walked hregular hSwhole hn hT'
  have hle : T' ≤ T := (hleT' T).mpr (Int.le_of_eq hcount.symm)
  have hge : T ≤ T' := by
    refine (hleT T').mpr ?_
    have hadd : hregular.timeline.between start S + hregular.timeline.between S T' =
        hregular.timeline.between start T' :=
      Timeline.between_add (Int.le_of_lt hstartS) (Int.le_of_lt hST') hstart hSwhole
    omega
  exact congrArg Except.ok (Int.le_antisymm hle hge)

/-- **The laws of a regular calendar whose dates are all resolved.** -/
theorem laws_of_regular (hregular : calendar.Regular)
    (hresolved : ∀ date, ∃ is, calendar.intervals date = .ok is) : calendar.Laws where
  counted start n T hstart h := by
    rcases Int.lt_or_eq_of_le (addBusinessSeconds_nonneg h) with hn | rfl
    · obtain ⟨_, _, hcount, _⟩ := add_walked hregular hstart hn h
      exact (between_ok hregular).mpr ⟨fun _ d _ => hresolved d, hcount.symm⟩
    · rw [addBusinessSeconds_zero] at h
      obtain rfl := Except.ok.inj h
      exact between_of_le (Int.le_refl _)
  least start n T t hstart h hn hbetween := by
    rcases Int.lt_or_le start t with hlt | hle
    · exact (add_le_iff hregular h (Int.le_of_lt hlt) hbetween).mpr (Int.le_refl n)
    · rw [between_of_le hle] at hbetween
      have hzero := Except.ok.inj hbetween
      omega
  twoSteps start m n T hstart hm hn h := by
    rcases Int.lt_or_eq_of_le hm with hm | rfl
    · exact add_twoSteps hregular hstart hm hn h
    · rw [Int.zero_add] at h
      exact ⟨start, addBusinessSeconds_zero start, h⟩

/-! ## 3. Hours that reach into a later date -/

/-- The bounds of all hours are on whole seconds. -/
def WholeBounds (version : BusinessCalendarVersion) : Prop :=
  WholeStarts version ∧ (∀ p ∈ version.workingPeriods, second ∣ (p.endLocalTime.val : Int)) ∧
    ∀ item ∈ version.exceptions, ∀ finish ∈ item.endLocalTime, second ∣ (finish.val : Int)

instance (version : BusinessCalendarVersion) : Decidable (WholeBounds version) :=
  inferInstanceAs (Decidable (_ ∧ _ ∧ _))

/-- The hours of a date end on whole seconds. -/
theorem periodsOf_wholeEnds {zones : String → Option ZoneInfo} {version : BusinessCalendarVersion}
    (h : construct zones version = .ok calendar) (hwhole : WholeBounds version) (date : Date) :
    ∀ p ∈ calendar.periodsOf date, second ∣ (p.endLocalTime.val : Int) := by
  obtain ⟨_, _, hperiods, hexceptions⟩ := construct_ok h
  intro p hp
  unfold periodsOf at hp
  dsimp only at hp
  split at hp
  · rw [hperiods] at hp
    unfold periodsOn at hp
    exact hwhole.2.1 p (List.mem_filter.mp ((List.mem_insertionSort _).mp hp)).1
  · obtain ⟨item, hitem, hp⟩ := List.mem_filterMap.mp hp
    rw [hexceptions] at hitem
    split at hp
    · rw [← Option.some.inj hp]
      cases hfinish : item.endLocalTime with
      | none => exact Int.dvd_zero _
      | some finish => exact hwhole.2.2 item (List.mem_filter.mp hitem).1 finish hfinish
    · cases hp

theorem hoursOf_subset {date : Date} : ∀ p ∈ calendar.hoursOf date, p ∈ calendar.periodsOf date := by
  intro p hp
  unfold hoursOf at hp
  split at hp
  · exact absurd hp List.not_mem_nil
  · exact hp

section Late

variable (hhours : calendar.version.twentyFourSeven = false)
  (hwhole : ∀ date, ∀ p ∈ calendar.periodsOf date, second ∣ (p.startLocalTime.val : Int) ∧
    second ∣ (p.endLocalTime.val : Int))

include hhours hwhole

theorem intervals_whole {date : Date} {is : List Interval} (h : calendar.intervals date = .ok is) :
    ∀ i ∈ is, second ∣ i.1 ∧ second ∣ i.2 := by
  refine intervals_of_hours hhours (P := fun x => second ∣ x) (Q := fun x => second ∣ x)
    (fun x y hx hy => ?_) h fun p hp i hi _ => ?_
  · rcases max_choice x y with hmax | hmax <;> rw [hmax]
    exacts [hx, hy]
  · obtain ⟨hstart, hfinish⟩ := hwhole date p (hoursOf_subset p hp)
    unfold resolvePeriod at hi
    simp only [bind_eq_ok, pure_eq_ok] at hi
    obtain ⟨_, hfirst, _, hlast, rfl⟩ := hi
    exact ⟨localBoundary_whole hfirst (second_dvd_combine hstart),
      localBoundary_whole hlast (second_dvd_combine hfinish)⟩

theorem slots_whole (date : Date) : ∀ i ∈ calendar.slots date, second ∣ i.1 :=
  slots_cases (P := fun is => ∀ i ∈ is, second ∣ i.1) (fun _ hi => absurd hi List.not_mem_nil)
    fun _ h i hi => (intervals_whole hhours hwhole h i hi).1

/-- A whole second in the hours of a date is reached from every earlier instant of the date. -/
theorem add_to {date y T : Int} {is : List Interval} {i : Interval}
    (his : calendar.intervals date = .ok is) (hdate : calendar.timezone.localDate y = date)
    (hy : second ∣ y) (hT : second ∣ T) (hlt : y < T) (hi : i ∈ is) (hstart : i.1 < T)
    (hend : T ≤ i.2) :
    0 < worked second y T is ∧ calendar.addBusinessSeconds y (worked second y T is) = .ok T := by
  obtain ⟨hpositive, hwalk⟩ := walk_to second_pos (intervals_inSequence his)
    (fun i hi => (intervals_whole hhours hwhole his i hi).1) hy hT hlt hi hstart hend
  refine ⟨hpositive, ?_⟩
  rw [addBusinessSeconds_pos hpositive, hdate]
  show addFrom calendar (3659 + 1) date y (worked second y T is) = .ok T
  rw [addFrom, bind_eq_ok]
  refine ⟨is, his, ?_⟩
  rw [consume_eq_walk, hwalk]
  rfl

end Late

/-- What is counted, date by date. -/
theorem between_sum {lower upper m : Int} (hlt : lower < upper)
    (h : calendar.businessSecondsBetween lower upper = .ok m) :
    m = ∑ d ∈ Ico (calendar.timezone.localDate lower) (calendar.timezone.localDate upper + 1),
      worked second lower upper (calendar.slots d) := by
  unfold businessSecondsBetween at h
  rw [if_neg (Int.not_le.mpr hlt)] at h
  dsimp only at h
  obtain ⟨_, hm⟩ := betweenFrom_ok.mp h
  rw [hm]
  exact Finset.sum_congr (Timeline.Ico_toNat _ _) fun _ _ => rfl

/-- Two sums over earlier and later dates, and one summand more, against the sum over all. -/
theorem sum_add_sum_le {f g : Int → Int} {first last end_ : Int} (hf : ∀ d, 0 ≤ f d)
    (hg : ∀ d, 0 ≤ g d) (hfirst : first < last) (hlast : last ≤ end_) :
    ∑ d ∈ Ico first (last + 1), f d + (g first + ∑ d ∈ Ico last (end_ + 1), g d) ≤
      ∑ d ∈ Ico first (end_ + 1), (f d + g d) := by
  have hleft : ∑ d ∈ Ico first (last + 1), f d ≤ ∑ d ∈ Ico first (end_ + 1), f d := by
    refine Finset.sum_le_sum_of_subset_of_nonneg (fun d hd => ?_) fun d _ _ => hf d
    rw [mem_Ico] at hd ⊢
    omega
  have hright : ∑ d ∈ Ico last (end_ + 1), g d ≤ ∑ d ∈ Ico (first + 1) (end_ + 1), g d := by
    refine Finset.sum_le_sum_of_subset_of_nonneg (fun d hd => ?_) fun d _ _ => hg d
    rw [mem_Ico] at hd ⊢
    omega
  have hsplit : ∑ d ∈ Ico first (end_ + 1), g d =
      g first + ∑ d ∈ Ico (first + 1) (end_ + 1), g d := Timeline.sum_from (by omega)
  rw [Finset.sum_add_distrib, hsplit]
  omega

/-- **Where the laws hold, no hours go on inside a later date**: a second of them would be added
    by a walk from their date but not by one from itself, and counted twice where the later
    date has hours. -/
theorem localDate_le_of_laws (hhours : calendar.version.twentyFourSeven = false)
    (hwhole : ∀ date, ∀ p ∈ calendar.periodsOf date, second ∣ (p.startLocalTime.val : Int) ∧
      second ∣ (p.endLocalTime.val : Int))
    (hzone : calendar.timezone.FoldsWithinDates) (hlaws : calendar.Laws) {date y S : Int}
    {is : List Interval} {i : Interval} (his : calendar.intervals date = .ok is)
    (hy : calendar.timezone.localDate y = date) (hi : i ∈ is) (hS : second ∣ S)
    (hstart : i.1 < S) (hend : S < i.2) : calendar.timezone.localDate S ≤ date := by
  by_contra hlate
  rw [Int.not_le] at hlate
  obtain ⟨hwholeStart, hwholeEnd⟩ := intervals_whole hhours hwhole his i hi
  -- a whole second of the date
  obtain ⟨y, hyWhole, hy⟩ : ∃ y : Int, second ∣ y ∧ calendar.timezone.localDate y = date :=
    ⟨_, ZoneInfo.second_dvd_floorSecond y, (ZoneInfo.localDate_floorSecond _ y).trans hy⟩
  have hyS : y < S := by
    by_contra hle
    have hmono := hzone.localDate_mono (Int.not_lt.mp hle)
    rw [hy] at hmono
    exact absurd hlate (Int.not_lt.mpr hmono)
  have hnext : S + second ≤ i.2 := by
    have hle := Int.le_of_dvd (Int.sub_pos_of_lt hend) (Int.dvd_sub hwholeEnd hS)
    omega
  have hnextWhole : second ∣ S + second := Int.dvd_add hS (Int.dvd_refl _)
  have hlt : S < S + second := Int.lt_add_of_pos_right _ second_pos
  obtain ⟨hk, haddS⟩ := add_to hhours hwhole his hy hyWhole hS hyS hi hstart (Int.le_of_lt hend)
  obtain ⟨_, haddNext⟩ := add_to hhours hwhole his hy hyWhole hnextWhole (Int.lt_trans hyS hlt) hi
    (Int.lt_trans hstart hlt) hnext
  have hsplit : worked second y S is + worked second S (S + second) is =
      worked second y (S + second) is :=
    worked_add (Int.le_of_lt hyS) (Int.le_of_lt hlt) hyWhole hS
      fun j hj => (intervals_whole hhours hwhole his j hj).1
  have hone : 1 ≤ worked second S (S + second) is := by
    have hlast := one_le_worked second_pos hnextWhole hi hwholeStart (Int.lt_trans hstart hlt) hnext
    rwa [Int.add_sub_cancel] at hlast
  -- in two steps, from `S` on its own date
  rw [← hsplit] at haddNext
  obtain ⟨S', hfirst, hsecond⟩ := hlaws.twoSteps y _ _ _ hyWhole (Int.le_of_lt hk)
    (Int.lt_of_lt_of_le Int.one_pos hone) haddNext
  rw [haddS] at hfirst
  obtain rfl := Except.ok.inj hfirst
  have hcountS := between_sum hyS (hlaws.counted _ _ _ hyWhole haddS)
  have hcountNext := between_sum (Int.lt_trans hyS hlt) (hlaws.counted _ _ _ hyWhole haddNext)
  have hcount := between_sum hlt (hlaws.counted _ _ _ hS hsecond)
  have hadd : ∀ d : Int, worked second y (S + second) (calendar.slots d) =
      worked second y S (calendar.slots d) + worked second S (S + second) (calendar.slots d) :=
    fun d => (worked_add (Int.le_of_lt hyS) (Int.le_of_lt hlt) hyWhole hS
      (slots_whole hhours hwhole d)).symm
  rw [hy] at hcountS hcountNext
  simp only [hadd] at hcountNext
  have htwice := sum_add_sum_le (f := fun d => worked second y S (calendar.slots d))
    (g := fun d => worked second S (S + second) (calendar.slots d))
    (fun _ => worked_nonneg second_pos) (fun _ => worked_nonneg second_pos) hlate
    (hzone.localDate_mono (Int.le_of_lt hlt))
  rw [← hcountS, ← hcount, ← hcountNext, slots_of_ok his] at htwice
  omega

/-! ## 4. Whole minutes -/

/-- The probe stops at the end of the gap, if that is whole minutes away. -/
theorem probeBoundary_gap {zone : ZoneInfo} {high : Int}
    (hshows : zone.astimezone (zone.toUtc false high) = high) :
    ∀ {steps : Nat} {naive : Int}, 60 * second ∣ high - naive → naive < high →
      high ≤ naive + steps * (60 * second) →
      (∀ n, naive ≤ n → n < high → zone.astimezone (zone.toUtc false n) ≠ n) →
      probeBoundary zone steps naive = .ok (zone.toUtc false high)
  | 0, naive, _, hbefore, hlimit, _ => by
      exfalso
      rw [Int.natCast_zero, Int.zero_mul] at hlimit
      omega
  | steps + 1, naive, hminute, hbefore, hlimit, hgap => by
      have hpositive : 0 < 60 * second := Int.mul_pos (by decide) second_pos
      have hnext : naive + 60 * second ≤ high := by
        have hle := Int.le_of_dvd (Int.sub_pos_of_lt hbefore) hminute
        omega
      rw [probeBoundary]
      rcases Int.lt_or_eq_of_le hnext with hlt | heq
      · rw [if_neg (hgap _ (by omega) hlt)]
        refine probeBoundary_gap hshows ?_ hlt ?_ fun n hn => hgap n (by omega)
        · rw [← Int.sub_sub]
          exact Int.dvd_sub hminute (Int.dvd_refl _)
        · rw [Nat.cast_add, Int.add_mul] at hlimit
          omega
      · rw [heq, if_pos hshows]

section Candidates

variable {zone : ZoneInfo} {naive : Int}

theorem shown_of_candidates (hfalse : zone.astimezone (zone.toUtc false naive) = naive)
    (htrue : zone.astimezone (zone.toUtc true naive) = naive) (isEnd : Bool) :
    localBoundary zone naive isEnd = .ok ((if isEnd then max else min)
      (zone.toUtc false naive) (zone.toUtc true naive)) := by
  have hcandidates : boundaryCandidates zone naive =
      [zone.toUtc false naive, zone.toUtc true naive] := by
    unfold boundaryCandidates
    simp only [List.filterMap_cons, hfalse, htrue, if_true, List.filterMap_nil]
  unfold localBoundary
  rw [hcandidates]
  rfl

theorem probed_of_candidates (h : ∀ fold, zone.astimezone (zone.toUtc fold naive) ≠ naive)
    (isEnd : Bool) : localBoundary zone naive isEnd = probeBoundary zone 180 naive := by
  have hcandidates : boundaryCandidates zone naive = [] := by
    unfold boundaryCandidates
    simp only [List.filterMap_cons, if_neg (h false), if_neg (h true), List.filterMap_nil]
  unfold localBoundary
  rw [hcandidates]

end Candidates

/-- **A bound on a whole minute** is resolved to an instant that shows it, or to the end of its
    gap; the start of hours to the earliest instant that shows it or a later time. -/
theorem localBoundary_minute {zone : ZoneInfo} (hspaced : zone.Spaced)
    (hzone : zone.FoldsWithinDates) {naive : Int} (hminute : 60 * second ∣ naive) (isEnd : Bool) :
    ∃ x : Int, localBoundary zone naive isEnd = .ok x ∧
      (zone.astimezone x = naive ∨ zone.astimezone (x - 1) < naive) ∧
      (isEnd = false → zone.astimezone (x - 1) < naive) := by
  cases hspaced.resolve hzone naive with
  | shown hle hshows hfirst =>
      rw [shown_of_candidates (hshows false) (hshows true)]
      cases isEnd with
      | true =>
          refine ⟨_, congrArg Except.ok (max_eq_right hle), .inl (hshows true), fun h => nomatch h⟩
      | false =>
          exact ⟨_, congrArg Except.ok (min_eq_left hle), .inl (hshows false), fun _ => hfirst⟩
  | @skipped high hbefore hlimit hwhole hgap hshows hfirst =>
      have hprobe : probeBoundary zone 180 naive = .ok (zone.toUtc false high) := by
        refine probeBoundary_gap hshows (Int.dvd_sub hwhole hminute) hbefore ?_
          fun n hn hn' => hgap n hn hn' false
        show high ≤ naive + 180 * (60 * second)
        omega
      rw [probed_of_candidates (hgap naive (Int.le_refl _) hbefore)]
      exact ⟨_, hprobe, .inr hfirst, fun _ => hfirst⟩

/-- All hours begin and end on whole minutes. -/
def WholeMinutes (calendar : BusinessCalendar) : Prop :=
  ∀ date, ∀ p ∈ calendar.periodsOf date,
    60 * second ∣ (p.startLocalTime.val : Int) ∧ 60 * second ∣ (p.endLocalTime.val : Int)

theorem minute_dvd_combine {date : Date} {time : TimeOfDay} (h : 60 * second ∣ (time.val : Int)) :
    60 * second ∣ combine date time := by
  have hday : 60 * second ∣ day := ⟨1440, rfl⟩
  exact Int.dvd_add (Dvd.dvd.mul_left hday date) h

theorem dateOf_combine (date : Int) (time : TimeOfDay) : dateOf (combine date time) = date := by
  have htime := time.isLt
  show (date * 86400000000 + (time.val : Int)) / 86400000000 = date
  omega

/-- **Hours on whole minutes keep to their dates**, in a zone whose changes keep apart. -/
theorem orderly_of_minutes (hspaced : calendar.timezone.Spaced)
    (hzone : calendar.timezone.FoldsWithinDates) (hminutes : calendar.WholeMinutes) :
    calendar.Orderly where
  resolved date p hp := by
    obtain ⟨hstart, hend⟩ := hminutes date p (hoursOf_subset p hp)
    obtain ⟨start, hstart, _⟩ :=
      localBoundary_minute hspaced hzone (minute_dvd_combine hstart) false
    obtain ⟨finish, hfinish, _⟩ :=
      localBoundary_minute hspaced hzone (minute_dvd_combine hend) true
    refine ⟨(start, finish), ?_⟩
    unfold resolvePeriod
    simp only [bind_eq_ok, pure_eq_ok]
    exact ⟨start, hstart, finish, hfinish, rfl⟩
  begins date p hp i x hi _ hx := by
    have hmidnight : 60 * second ∣ combine date midnight := minute_dvd_combine (Int.dvd_zero _)
    obtain ⟨first, hfirst, _, hbefore⟩ := localBoundary_minute hspaced hzone hmidnight false
    obtain rfl : first = x := Except.ok.inj (hfirst.symm.trans hx)
    by_contra hlt
    -- the instant before it shows an earlier date
    have hdate := hzone.localDate_mono (Int.le_sub_one_of_lt (Int.not_le.mp hlt))
    have hstart := Int.le_trans (le_localDate_start hi) hdate
    have hearlier := hbefore rfl
    rw [combine_midnight] at hearlier
    have hshown : calendar.timezone.localDate (first - 1) < date :=
      Int.ediv_lt_of_lt_mul (by decide) hearlier
    exact absurd hstart (Int.not_le.mpr hshown)
  ends date p hp i x hi _ hx := by
    obtain ⟨_, hend⟩ := hminutes date p (hoursOf_subset p hp)
    unfold resolvePeriod at hi
    simp only [bind_eq_ok, pure_eq_ok] at hi
    obtain ⟨_, _, finish, hfinish, rfl⟩ := hi
    obtain ⟨last, hlast, hshows, _⟩ :=
      localBoundary_minute hspaced hzone (minute_dvd_combine hend) true
    obtain rfl : last = finish := Except.ok.inj (hlast.symm.trans hfinish)
    by_contra hlt
    have hdate := hzone.localDate_mono (Int.le_sub_one_of_lt (Int.not_le.mp hlt))
    have hshown : calendar.timezone.localDate (last - 1) ≤ date := by
      rcases hshows with hshows | hearlier
      · have hmono := hzone.localDate_mono (show last - 1 ≤ last by omega)
        have hsame : calendar.timezone.localDate last = date := by
          rw [ZoneInfo.localDate, hshows, dateOf_combine]
        rwa [hsame] at hmono
      · have hmono := ZoneInfo.dateOf_mono (Int.le_of_lt hearlier)
        rwa [dateOf_combine] at hmono
    exact absurd (Int.lt_of_lt_of_le hx hdate) (Int.not_lt.mpr hshown)

/-! ## 5. Constructed calendars -/

theorem periodsOf_bounds {zones : String → Option ZoneInfo} {version : BusinessCalendarVersion}
    (h : construct zones version = .ok calendar) (hwhole : WholeBounds version) (date : Date) :
    ∀ p ∈ calendar.periodsOf date, second ∣ (p.startLocalTime.val : Int) ∧
      second ∣ (p.endLocalTime.val : Int) :=
  fun p hp => ⟨periodsOf_whole h hwhole.1 date p hp, periodsOf_wholeEnds h hwhole date p hp⟩

/-- **Adding and counting business seconds**, for every calendar with bounds on whole seconds in
    a zone that repeats no midnight: the laws hold if the hours keep to their dates, and they
    do not if hours go on inside a later date. -/
theorem laws_of_orderly {zones : String → Option ZoneInfo} {version : BusinessCalendarVersion}
    (hconstruct : construct zones version = .ok calendar)
    (hhours : version.twentyFourSeven = false) (hwhole : WholeBounds version)
    (hzone : calendar.timezone.FoldsWithinDates) :
    (calendar.Orderly → calendar.Laws) ∧
      (calendar.Laws → ∀ (date y S : Int) (is : List Interval), calendar.intervals date = .ok is →
        calendar.timezone.localDate y = date → ∀ i ∈ is, second ∣ S → i.1 < S → S < i.2 →
          calendar.timezone.localDate S ≤ date) := by
  have hversion : calendar.version.twentyFourSeven = false := by
    rw [(construct_ok hconstruct).1]
    exact hhours
  have hbounds := periodsOf_bounds hconstruct hwhole
  constructor
  · intro horderly
    have hregular := regular_of_orderly hversion hzone horderly
      fun date p hp => (hbounds date p hp).1
    exact laws_of_regular hregular (horderly.intervals_ok hversion)
  · intro hlaws date y S is his hy i hi hS hstart hend
    exact localDate_le_of_laws hversion hbounds hzone hlaws his hy hi hS hstart hend

/-- A clock that goes from 23:00 on 2024-03-30 to midnight, and to another offset. -/
def springForward : ZoneInfo := ⟨-7200, [⟨1711846800, -3600⟩]⟩

theorem springForward_folds : springForward.FoldsWithinDates where
  inOrder := List.pairwise_singleton _ _
  folds := ⟨by decide, trivial⟩

theorem springForward_spaced : springForward.Spaced :=
  ⟨by decide, by decide, (fun _ ht => nomatch ht), trivial⟩

/-- Hours on Saturday from 22:00 to the given time, and on Sunday until noon. -/
def weekend (finish : TimeOfDay) : BusinessCalendarVersion where
  businessCalendarVersionId := 1
  calendarId := 2
  timezoneName := "America/Nuuk"
  twentyFourSeven := false
  workingPeriods := [⟨6, ⟨79200000000, by decide⟩, finish⟩,
    ⟨7, midnight, ⟨43200000000, by decide⟩⟩]
  exceptions := []

/-- Saturday until 23:30, which is in the gap. -/
theorem laws_of_orderly_sample :
    ∃ calendar, construct (fun _ => some springForward) (weekend ⟨84600000000, by decide⟩) =
      .ok calendar ∧ calendar.Laws := by
  obtain ⟨calendar, hconstruct⟩ : ∃ calendar, construct (fun _ => some springForward)
      (weekend ⟨84600000000, by decide⟩) = .ok calendar := ⟨_, rfl⟩
  have hzone : calendar.timezone = springForward :=
    (Option.some.inj (construct_ok hconstruct).2.1).symm
  have hwhole : WholeBounds (weekend ⟨84600000000, by decide⟩) := by decide +kernel
  have hminutes : calendar.WholeMinutes := by
    obtain ⟨_, _, hperiods, hexceptions⟩ := construct_ok hconstruct
    intro date p hp
    have hp : p ∈ calendar.periods (isoweekday date) := by
      unfold periodsOf at hp
      rw [hexceptions] at hp
      exact hp
    rw [hperiods] at hp
    have hmem := (List.mem_filter.mp ((List.mem_insertionSort _).mp hp)).1
    revert hmem
    have hall : ∀ p ∈ (weekend ⟨84600000000, by decide⟩).workingPeriods,
        60 * second ∣ (p.startLocalTime.val : Int) ∧ 60 * second ∣ (p.endLocalTime.val : Int) := by
      decide +kernel
    exact hall p
  refine ⟨calendar, hconstruct, (laws_of_orderly hconstruct rfl hwhole ?_).1
    (orderly_of_minutes ?_ ?_ hminutes)⟩
  · exact hzone ▸ springForward_folds
  · exact hzone ▸ springForward_spaced
  · exact hzone ▸ springForward_folds

/-- Saturday until 23:59:59: the interval ends on Sunday at 00:00:59, and half a minute of it
    is counted twice. -/
theorem laws_fail_after_gap :
    ¬ ∀ (zones : String → Option ZoneInfo) (version : BusinessCalendarVersion)
      (calendar : BusinessCalendar), construct zones version = .ok calendar →
      version.twentyFourSeven = false → WholeBounds version →
      calendar.timezone.FoldsWithinDates → calendar.timezone.Spaced → calendar.Laws := by
  intro hclaim
  obtain ⟨calendar, hconstruct⟩ : ∃ calendar, construct (fun _ => some springForward)
      (weekend ⟨86399000000, by decide⟩) = .ok calendar := ⟨_, rfl⟩
  have hzone : calendar.timezone = springForward :=
    (Option.some.inj (construct_ok hconstruct).2.1).symm
  have hwhole : WholeBounds (weekend ⟨86399000000, by decide⟩) := by decide +kernel
  have hlaws := hclaim _ _ calendar hconstruct rfl hwhole (hzone ▸ springForward_folds)
    (hzone ▸ springForward_spaced)
  have hadd : ((construct (fun _ => some springForward) (weekend ⟨86399000000, by decide⟩)).bind
      fun calendar => calendar.addBusinessSeconds 1711843200000000 3630) =
        .ok 1711846830000000 := by
    decide +kernel
  have hbetween : ((construct (fun _ => some springForward)
      (weekend ⟨86399000000, by decide⟩)).bind fun calendar =>
        calendar.businessSecondsBetween 1711843200000000 1711846830000000) = .ok 3660 := by
    decide +kernel
  rw [hconstruct] at hadd hbetween
  have hcount := hlaws.counted 1711843200000000 3630 1711846830000000 (by decide) hadd
  have hdifferent : (3660 : Int) = 3630 := Except.ok.inj (hbetween.symm.trans hcount)
  cases hdifferent

end BusinessCalendar

end Helpdesk.Sla
