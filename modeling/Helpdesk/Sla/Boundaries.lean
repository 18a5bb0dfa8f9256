/-
  File:      Helpdesk/Sla/Boundaries.lean
  Subject:   The intervals of a date, and the instants local times are resolved to
             (apps/api/app/sla/calendar.py).

  A local time that the clock skips is probed for in steps of a minute, which keep its seconds:
  the end of the gap is met only from a time that lies whole minutes before it.

  * `mergeIntervals_covers`: merging covers what the intervals cover;
  * `boundary_mono`: later local times are resolved to later instants;
  * `day_iff`: the intervals of a date cover its hours, each once, exactly if these are found;
  * `boundaries_law`: all this, and that a gap is left at its end, exactly if the hours of the
    date are found and the local times lie whole minutes before the ends of their gaps.
-/
import Mathlib
import Helpdesk.Sla.AlwaysOpen

namespace Helpdesk.Sla

open Helpdesk.Python

/-! ## 1. Merging covers what the intervals cover -/

/-- Some interval holds the instant; the end of an interval is not its own. -/
def Covers (intervals : List Interval) (x : Int) : Prop := ∃ i ∈ intervals, i.1 ≤ x ∧ x < i.2

section Covers

variable {x : Int} {intervals merged : List Interval} {i : Interval}

@[simp] theorem covers_nil : ¬ Covers [] x := fun ⟨_, hi, _⟩ => absurd hi List.not_mem_nil

@[simp] theorem covers_cons :
    Covers (i :: intervals) x ↔ (i.1 ≤ x ∧ x < i.2) ∨ Covers intervals x := by
  unfold Covers
  simp only [List.mem_cons, or_and_right, exists_or, exists_eq_left]

@[simp] theorem covers_reverse : Covers intervals.reverse x ↔ Covers intervals x := by
  unfold Covers
  simp only [List.mem_reverse]

theorem mergeSorted_covers : ∀ {intervals merged : List Interval},
    intervals.Pairwise (fun a b => a.1 ≤ b.1) →
    (∀ a ∈ merged.head?, ∀ b ∈ intervals, a.1 ≤ b.1) →
    (Covers (mergeSorted merged intervals) x ↔ Covers merged x ∨ Covers intervals x)
  | [], merged, _, _ => by simp [mergeSorted]
  | interval :: rest, [], hsorted, _ => by
      obtain ⟨hfirst, hrest⟩ := List.pairwise_cons.mp hsorted
      rw [mergeSorted, mergeSorted_covers hrest fun a ha b hb => ?_]
      · simp
      · obtain rfl := Option.mem_some.mp ha
        exact hfirst b hb
  | (start, finish) :: rest, (first, last) :: merged, hsorted, hhead => by
      obtain ⟨hfirst, hrest⟩ := List.pairwise_cons.mp hsorted
      have hstart : first ≤ start := hhead _ rfl _ List.mem_cons_self
      rw [mergeSorted]
      split
      · rw [mergeSorted_covers hrest fun a ha b hb => ?_]
        · simp only [covers_cons]
          tauto
        · obtain rfl := Option.mem_some.mp ha
          exact hfirst b hb
      · rename_i hmeet
        rw [mergeSorted_covers hrest fun a ha b hb => ?_]
        · have hboth : first ≤ x ∧ x < max last finish ↔
              (first ≤ x ∧ x < last) ∨ (start ≤ x ∧ x < finish) := by
            have hmeet : start ≤ last := Int.not_lt.mp hmeet
            rw [lt_max_iff]
            constructor
            · rintro ⟨hle, hlt⟩
              by_cases hearly : x < last
              · exact .inl ⟨hle, hearly⟩
              · exact .inr ⟨Int.le_trans hmeet (Int.not_lt.mp hearly), hlt.resolve_left hearly⟩
            · intro h
              rcases h with ⟨hle, hlt⟩ | ⟨hle, hlt⟩
              · exact ⟨hle, .inl hlt⟩
              · exact ⟨Int.le_trans hstart hle, .inr hlt⟩
          simp only [covers_cons, hboth]
          tauto
        · obtain rfl := Option.mem_some.mp ha
          exact Int.le_trans hstart (hfirst b hb)

/-- **Merging covers what the intervals cover**; an empty one covers nothing. -/
theorem mergeIntervals_covers : Covers (mergeIntervals intervals) x ↔ Covers intervals x := by
  have hsorted := List.pairwise_insertionSort Interval.le (intervals.filter fun i => i.1 < i.2)
  unfold mergeIntervals
  rw [mergeSorted_covers (hsorted.imp Interval.le_start) fun a ha => absurd ha (by simp)]
  constructor
  · intro h
    obtain ⟨i, hi, hx⟩ := h.resolve_left covers_nil
    exact ⟨i, (List.mem_filter.mp ((List.mem_insertionSort _).mp hi)).1, hx⟩
  · intro ⟨i, hi, hx⟩
    refine .inr ⟨i, (List.mem_insertionSort _).mpr (List.mem_filter.mpr ⟨hi, ?_⟩), hx⟩
    exact decide_eq_true (Int.lt_of_le_of_lt hx.1 hx.2)

theorem mergeSorted_open : ∀ {intervals merged : List Interval}, (∀ i ∈ intervals, i.1 < i.2) →
    (∀ i ∈ merged, i.1 < i.2) → ∀ i ∈ mergeSorted merged intervals, i.1 < i.2
  | [], merged, _, hmerged => by
      rw [mergeSorted]
      exact fun i hi => hmerged i (List.mem_reverse.mp hi)
  | interval :: rest, [], hopen, _ => by
      obtain ⟨hfirst, hrest⟩ := List.forall_mem_cons.mp hopen
      rw [mergeSorted]
      exact mergeSorted_open hrest (List.forall_mem_singleton.mpr hfirst)
  | (start, finish) :: rest, (first, last) :: merged, hopen, hmerged => by
      obtain ⟨hfirst, hrest⟩ := List.forall_mem_cons.mp hopen
      obtain ⟨hhead, htail⟩ := List.forall_mem_cons.mp hmerged
      rw [mergeSorted]
      split
      · exact mergeSorted_open hrest (List.forall_mem_cons.mpr ⟨hfirst, hmerged⟩)
      · refine mergeSorted_open hrest (List.forall_mem_cons.mpr ⟨?_, htail⟩)
        exact Int.lt_of_lt_of_le hhead (le_max_left _ _)

theorem mergeIntervals_open : ∀ i ∈ mergeIntervals intervals, i.1 < i.2 := by
  refine mergeSorted_open (fun i hi => ?_) fun i hi => absurd hi List.not_mem_nil
  exact of_decide_eq_true (List.mem_filter.mp ((List.mem_insertionSort _).mp hi)).2

end Covers

/-! ## 2. Gaps -/

/-- No instant shows the local time. -/
def Skipped (zone : ZoneInfo) (naive : Int) : Prop := ∀ x, zone.astimezone x ≠ naive

/-- The first instant that shows a later time: after a gap, the first valid one. -/
def FirstAfter (zone : ZoneInfo) (naive x : Int) : Prop :=
  IsLeast {y | naive < zone.astimezone y} x

/-- Some instant shows the local time, or one that lies at most 180 whole minutes later. -/
def Near (zone : ZoneInfo) (naive : Int) : Prop :=
  ∃ k : Int, 0 ≤ k ∧ k ≤ 180 ∧ ¬ Skipped zone (naive + k * (60 * second))

/-- A skipped local time lies whole minutes before the end of its gap, at most 180. -/
def Aligned (zone : ZoneInfo) (naive : Int) : Prop :=
  Skipped zone naive → ∀ x, FirstAfter zone naive x →
    ∃ k : Int, k ≤ 180 ∧ zone.astimezone x = naive + k * (60 * second)

namespace BusinessCalendar

open ZoneInfo (Transition.low Transition.high)

variable {calendar : BusinessCalendar} {zone : ZoneInfo} {offset naive x : Int} {t : Transition}

section Gap

variable (hapart : zone.Apart) (hchange : (offset, t) ∈ zone.changes)
  (hlow : Transition.low offset t * second ≤ naive)
  (hhigh : naive < Transition.high offset t * second) (hforward : offset < t.offset)

include hapart hchange hforward

theorem gap_after {y : Int} (hy : t.utc * second ≤ y) :
    Transition.high offset t * second ≤ zone.astimezone y := by
  refine ZoneInfo.le_shown hapart.inOrder hapart.apart hchange hy (Int.le_refl _) ?_
  unfold Transition.high second at *
  omega

include hlow

theorem gap_before {y : Int} (hy : y < t.utc * second) : zone.astimezone y < naive := by
  refine ZoneInfo.shown_lt hapart.inOrder hapart.apart hchange hlow hy ?_
  unfold Transition.low second at *
  omega

include hhigh

theorem gap_skipped : Skipped zone naive := by
  intro x hshows
  rcases Int.lt_or_le x (t.utc * second) with hbefore | hafter
  · exact absurd hshows (Int.ne_of_lt (gap_before hapart hchange hlow hforward hbefore))
  · have hmore := gap_after hapart hchange hforward hafter
    exact absurd hshows (Int.ne_of_gt (Int.lt_of_lt_of_le hhigh hmore))

theorem gap_firstAfter : FirstAfter zone naive (t.utc * second) := by
  constructor
  · exact Int.lt_of_lt_of_le hhigh (gap_after hapart hchange hforward (Int.le_refl _))
  · intro y hy
    by_contra hbefore
    exact absurd hy (Int.not_lt.mpr (Int.le_of_lt
      (gap_before hapart hchange hlow hforward (Int.not_le.mp hbefore))))

end Gap

/-- A local time that is shown at all is shown by the instants found for it. -/
theorem shown_of_not_skipped (hapart : zone.Apart) (h : ¬ Skipped zone naive) (fold : Bool) :
    zone.astimezone (zone.toUtc fold naive) = naive := by
  cases hapart.place naive with
  | @once x honce =>
      have hutc : zone.toUtc fold naive = x := honce.found fold
      rw [hutc]
      exact honce.shows
  | repeated hchange hlow hhigh hback =>
      exact (repeated_shown hapart hchange hlow hhigh hback).2.2.1 fold
  | skipped hchange hlow hhigh hforward =>
      exact absurd (gap_skipped hapart hchange hlow hhigh hforward) h

/-! ## 3. What local times are resolved to -/

/-- A boundary shows its local time, or the clock skips it and the probe has found it. -/
theorem boundary_cases (hapart : zone.Apart) {isEnd : Bool}
    (h : localBoundary zone naive isEnd = .ok x) :
    zone.astimezone x = naive ∨
      Skipped zone naive ∧ probeBoundary zone 180 naive = .ok x := by
  rcases localBoundary_cases h with hshows | ⟨hnone, hprobe⟩
  · exact .inl hshows
  · refine .inr ⟨?_, hprobe⟩
    by_contra hshown
    exact hnone false (shown_of_not_skipped hapart hshown false)

theorem probeBoundary_defined (hapart : zone.Apart) : ∀ {steps : Nat} {naive k : Int}, 1 ≤ k →
    k ≤ steps → ¬ Skipped zone (naive + k * (60 * second)) →
    ∃ x, probeBoundary zone steps naive = .ok x
  | 0, naive, k, hk, hsteps, _ => by omega
  | steps + 1, naive, k, hk, hsteps, hshown => by
      rw [probeBoundary]
      split
      · exact ⟨_, rfl⟩
      · rename_i hnot
        rcases Int.lt_or_eq_of_le hk with hlater | rfl
        · refine probeBoundary_defined hapart (k := k - 1) (by omega) (by omega) ?_
          have hnext : naive + 60 * second + (k - 1) * (60 * second) =
              naive + k * (60 * second) := by
            rw [Int.sub_mul]
            omega
          rwa [hnext]
        · rw [Int.one_mul] at hshown
          exact absurd (shown_of_not_skipped hapart hshown false) hnot

/-- **A local time is resolved** exactly if it is shown, or a time whole minutes later is. -/
theorem boundary_defined (hapart : zone.Apart) (isEnd : Bool) :
    (∃ x, localBoundary zone naive isEnd = .ok x) ↔ Near zone naive := by
  constructor
  · intro ⟨x, h⟩
    rcases boundary_cases hapart h with hshows | ⟨_, hprobe⟩
    · refine ⟨0, Int.le_refl _, by decide, fun hskipped => hskipped x ?_⟩
      rw [hshows, Int.zero_mul, Int.add_zero]
    · obtain ⟨k, hk, hsteps, _, hshows⟩ := probeBoundary_found hprobe
      exact ⟨k, by omega, hsteps, fun hskipped => hskipped x hshows⟩
  · intro ⟨k, hk, hsteps, hshown⟩
    by_cases hskipped : Skipped zone naive
    · rw [probed_of_candidates fun fold => hskipped _]
      refine probeBoundary_defined hapart ?_ hsteps hshown
      by_contra hzero
      obtain rfl : k = 0 := by omega
      rw [Int.zero_mul, Int.add_zero] at hshown
      exact hshown hskipped
    · have hshows := shown_of_not_skipped hapart hskipped
      exact ⟨_, shown_of_candidates (hshows false) (hshows true) isEnd⟩

/-- A skipped local time is resolved to the first valid instant after its gap. -/
def GapLaw (zone : ZoneInfo) (naive : Int) (isEnd : Bool) : Prop :=
  Skipped zone naive → ∃ x, FirstAfter zone naive x ∧ localBoundary zone naive isEnd = .ok x

/-- **Where gaps are left at their ends**: exactly from local times whole minutes before. -/
theorem gapLaw_iff (hapart : zone.Apart) (isEnd : Bool) :
    GapLaw zone naive isEnd ↔ Aligned zone naive := by
  constructor
  · intro hlaw hskipped x hfirst
    obtain ⟨x', hfirst', hboundary⟩ := hlaw hskipped
    obtain rfl := hfirst.unique hfirst'
    rw [probed_of_candidates fun fold => hskipped _] at hboundary
    obtain ⟨k, _, hk, _, hshows⟩ := probeBoundary_found hboundary
    exact ⟨k, hk, hshows⟩
  · intro haligned hskipped
    cases hapart.place naive with
    | once honce => exact absurd honce.shows (hskipped _)
    | repeated hchange hlow hhigh hback =>
        exact absurd ((repeated_shown hapart hchange hlow hhigh hback).2.2.1 false) (hskipped _)
    | @skipped offset t hchange hlow hhigh hforward =>
        have hfirst := gap_firstAfter hapart hchange hlow hhigh hforward
        obtain ⟨hfound, hshows⟩ := forward_found hapart hchange hforward
        obtain ⟨k, hk, hend⟩ := haligned hskipped _ hfirst
        rw [hshows] at hend
        rw [← hfound] at hshows
        have hprobe : probeBoundary zone 180 naive =
            .ok (zone.toUtc false (Transition.high offset t * second)) := by
          refine probeBoundary_gap hshows ?_ hhigh ?_
            fun n hn hn' => gap_skipped hapart hchange (Int.le_trans hlow hn) hn' hforward _
          · rw [hend, add_sub_cancel_left]
            exact Int.dvd_mul_left _ _
          · rw [hend]
            exact Int.add_le_add_left (Int.mul_le_mul_of_nonneg_right hk (by decide)) _
        rw [hfound] at hprobe
        exact ⟨_, hfirst, (probed_of_candidates (fun fold => hskipped _) isEnd).trans hprobe⟩

theorem GapLaw.defined (hapart : zone.Apart) {isEnd : Bool} (hlaw : GapLaw zone naive isEnd) :
    ∃ x, localBoundary zone naive isEnd = .ok x := by
  by_cases hskipped : Skipped zone naive
  · obtain ⟨x, _, hboundary⟩ := hlaw hskipped
    exact ⟨x, hboundary⟩
  · have hshows := shown_of_not_skipped hapart hskipped
    exact ⟨_, shown_of_candidates (hshows false) (hshows true) isEnd⟩

/-- Until the instant a boundary is resolved to, the clock shows less than its local time: at the
    start of an interval, and after a gap. -/
theorem before_boundary (hapart : zone.Apart) {isEnd : Bool} (hlaw : GapLaw zone naive isEnd)
    (h : localBoundary zone naive isEnd = .ok x) (hearly : isEnd = false ∨ Skipped zone naive)
    {y : Int} (hy : y < x) : zone.astimezone y < naive := by
  cases hapart.place naive with
  | @once z honce =>
      have hutc : ∀ fold, zone.toUtc fold naive = z := honce.found
      obtain rfl := hearly.resolve_right fun hskipped => hskipped z honce.shows
      have hshown : ∀ fold, zone.astimezone (zone.toUtc fold naive) = naive :=
        fun fold => (hutc fold).symm ▸ honce.shows
      rw [shown_of_candidates (hshown false) (hshown true), hutc, hutc] at h
      have hsame : z = x := (min_self z).symm.trans (Except.ok.inj h)
      exact honce.before y (hsame ▸ hy)
  | repeated hchange hlow hhigh hback =>
      obtain ⟨_, _, hshows, hbefore, _⟩ := repeated_shown hapart hchange hlow hhigh hback
      obtain rfl := hearly.resolve_right fun hskipped => hskipped _ (hshows false)
      rw [shown_of_candidates (hshows false) (hshows true)] at h
      refine hbefore y (Int.lt_of_lt_of_le hy ?_)
      rw [← Except.ok.inj h]
      exact min_le_left _ _
  | skipped hchange hlow hhigh hforward =>
      obtain ⟨x', hfirst, hboundary⟩ := hlaw (gap_skipped hapart hchange hlow hhigh hforward)
      obtain rfl := Except.ok.inj (h.symm.trans hboundary)
      obtain rfl := hfirst.unique (gap_firstAfter hapart hchange hlow hhigh hforward)
      exact gap_before hapart hchange hlow hforward hy

/-- **Later local times are resolved to later instants**, where gaps are left at their ends. -/
theorem boundary_mono (hapart : zone.Apart) {isEnd : Bool} {earlier later x y : Int}
    (hle : earlier ≤ later) (hlaw : GapLaw zone earlier isEnd)
    (hx : localBoundary zone earlier isEnd = .ok x) (hy : localBoundary zone later isEnd = .ok y) :
    x ≤ y := by
  by_contra hback
  have hback : y < x := Int.not_le.mp hback
  have hlater := localBoundary_shows hy
  by_cases hearly : isEnd = false ∨ Skipped zone earlier
  · have hbefore := before_boundary hapart hlaw hx hearly hback
    exact absurd (Int.lt_of_lt_of_le hbefore (Int.le_trans hle hlater)) (Int.lt_irrefl _)
  · -- the end of an interval, at the last instant that shows it
    rw [not_or, Bool.not_eq_false] at hearly
    obtain ⟨rfl, hshown⟩ := hearly
    have hshows := (boundary_cases hapart hx).resolve_right fun hgap => hshown hgap.1
    have hafter := le_shown_of_end hapart hy (Int.le_of_lt hback)
    rw [hshows] at hafter
    obtain rfl := Int.le_antisymm hle hafter
    exact absurd (Except.ok.inj (hx.symm.trans hy)) (Int.ne_of_gt hback)

/-! ## 4. The hours of a date -/

/-- The local times between which a calendar opens on a date: custom hours replace the weekday's,
    a closed date has none, and a calendar round the clock goes from midnight to midnight. -/
def Opens (version : BusinessCalendarVersion) (date : Date) (start finish : LocalDatetime) : Prop :=
  if version.twentyFourSeven then
    start = combine date midnight ∧ finish = combine (date + 1) midnight
  else
    (∀ item ∈ version.exceptions, item.exceptionDate = date → item.exceptionType ≠ .closed) ∧
      ((∃ item ∈ version.exceptions, item.exceptionDate = date ∧ item.exceptionType = .customHours ∧
          ∃ first ∈ item.startLocalTime, ∃ last ∈ item.endLocalTime,
            start = combine date first ∧ finish = combine date last) ∨
        (∀ item ∈ version.exceptions, item.exceptionDate = date →
          item.exceptionType ≠ .customHours) ∧
        ∃ p ∈ version.workingPeriods, p.isoDayOfWeek = isoweekday date ∧
          start = combine date p.startLocalTime ∧ finish = combine date p.endLocalTime)

theorem opens_open {version : BusinessCalendarVersion} (hhours : version.twentyFourSeven = true)
    {date : Date} {start finish : LocalDatetime} : Opens version date start finish ↔
      start = combine date midnight ∧ finish = combine (date + 1) midnight := by
  unfold Opens
  rw [if_pos hhours]

/-- The intervals of a date are in order, none is empty, none meets another, and together they
    hold what the hours of the date hold. -/
def DayLaw (calendar : BusinessCalendar) (version : BusinessCalendarVersion) (date : Date) : Prop :=
  ∃ intervals, calendar.intervals date = .ok intervals ∧ InSequence intervals ∧
    (∀ i ∈ intervals, i.1 < i.2) ∧
    ∀ x, Covers intervals x ↔ ∃ start finish first last, Opens version date start finish ∧
      localBoundary calendar.timezone start false = .ok first ∧
      localBoundary calendar.timezone finish true = .ok last ∧ first ≤ x ∧ x < last

section Constructed

variable {zones : String → Option ZoneInfo} {version : BusinessCalendarVersion}
  (hconstruct : construct zones version = .ok calendar)

include hconstruct

/-- Custom hours of a calendar that is accepted have both bounds. -/
theorem customHours_bounds {item : CalendarException} (hitem : item ∈ version.exceptions)
    (hcustom : item.exceptionType = .customHours) :
    ∃ first last, item.startLocalTime = some first ∧ item.endLocalTime = some last := by
  have hchecked : validateException item = .ok () := by
    unfold construct at hconstruct
    split at hconstruct
    case h_2 =>
      rw [bind_eq_ok] at hconstruct
      obtain ⟨_, hthrow, _⟩ := hconstruct
      exact (throw_ne_ok.mp hthrow).elim
    simp only [bind_eq_ok] at hconstruct
    obtain ⟨_, _, _, _, _, hexceptions, _⟩ := hconstruct
    unfold validatedExceptions at hexceptions
    rw [bind_eq_ok] at hexceptions
    obtain ⟨_, hchecks, _⟩ := hexceptions
    exact checked_of_forM hchecks item hitem
  unfold validateException at hchecked
  rw [hcustom] at hchecked
  cases hfirst : item.startLocalTime with
  | none =>
      rw [hfirst] at hchecked
      cases hchecked
  | some first =>
      cases hlast : item.endLocalTime with
      | none =>
          rw [hfirst, hlast] at hchecked
          cases hchecked
      | some last => exact ⟨first, last, rfl, rfl⟩

theorem mem_exceptions {date : Date} {item : CalendarException} :
    item ∈ calendar.exceptions date ↔ item ∈ version.exceptions ∧ item.exceptionDate = date := by
  rw [(construct_ok hconstruct).2.2.2, List.mem_filter, decide_eq_true_iff]

/-- **The hours of a date that is not open round the clock.** -/
theorem hoursOf_iff (hhours : version.twentyFourSeven = false) {date : Date}
    {start finish : LocalDatetime} :
    (∃ p ∈ calendar.hoursOf date, start = combine date p.startLocalTime ∧
      finish = combine date p.endLocalTime) ↔ Opens version date start finish := by
  obtain ⟨_, _, hperiods, _⟩ := construct_ok hconstruct
  have hexceptions : ∀ item, item ∈ calendar.exceptions date ↔ _ :=
    fun item => mem_exceptions hconstruct
  unfold Opens hoursOf
  rw [if_neg (Bool.eq_false_iff.mp hhours)]
  by_cases hclosed : ((calendar.exceptions date).any fun item => item.exceptionType = .closed) = true
  · rw [if_pos hclosed]
    obtain ⟨item, hitem, htype⟩ := List.any_eq_true.mp hclosed
    obtain ⟨hmem, hdate⟩ := (hexceptions item).mp hitem
    constructor
    · intro ⟨p, hp, _⟩
      exact absurd hp List.not_mem_nil
    · intro ⟨hopen, _⟩
      exact absurd (of_decide_eq_true htype) (hopen item hmem hdate)
  · rw [if_neg hclosed]
    have hopen : ∀ item ∈ version.exceptions, item.exceptionDate = date →
        item.exceptionType ≠ .closed := by
      intro item hmem hdate htype
      exact hclosed (List.any_eq_true.mpr
        ⟨item, (hexceptions item).mpr ⟨hmem, hdate⟩, decide_eq_true htype⟩)
    unfold periodsOf
    dsimp only
    split
    · -- no custom hours
      rename_i hnone
      rw [List.isEmpty_iff, List.filterMap_eq_nil_iff] at hnone
      have hweekly : ∀ item ∈ version.exceptions, item.exceptionDate = date →
          item.exceptionType ≠ .customHours := by
        intro item hmem hdate htype
        have hitem := hnone item ((hexceptions item).mpr ⟨hmem, hdate⟩)
        rw [if_pos htype] at hitem
        cases hitem
      rw [hperiods, periodsOn]
      simp only [List.mem_insertionSort, List.mem_filter, decide_eq_true_eq]
      constructor
      · intro ⟨p, ⟨hp, hday⟩, hstart, hfinish⟩
        exact ⟨hopen, .inr ⟨hweekly, p, hp, hday, hstart, hfinish⟩⟩
      · intro ⟨_, h⟩
        rcases h with ⟨item, hmem, hdate, htype, _⟩ | ⟨_, p, hp, hday, hstart, hfinish⟩
        · exact absurd htype (hweekly item hmem hdate)
        · exact ⟨p, ⟨hp, hday⟩, hstart, hfinish⟩
    · rename_i hsome
      constructor
      · intro ⟨p, hp, hstart, hfinish⟩
        obtain ⟨item, hitem, hp⟩ := List.mem_filterMap.mp hp
        split at hp
        · rename_i htype
          obtain ⟨hmem, hdate⟩ := (hexceptions item).mp hitem
          obtain ⟨first, last, hfirst, hlast⟩ := customHours_bounds hconstruct hmem htype
          rw [hfirst, hlast] at hp
          obtain rfl := Option.some.inj hp
          exact ⟨hopen, .inl ⟨item, hmem, hdate, htype, first, hfirst, last, hlast, hstart, hfinish⟩⟩
        · cases hp
      · intro ⟨_, h⟩
        rcases h with ⟨item, hmem, hdate, htype, first, hfirst, last, hlast, hstart, hfinish⟩ |
          ⟨hweekly, _⟩
        · refine ⟨⟨isoweekday date, first, last⟩, List.mem_filterMap.mpr
            ⟨item, (hexceptions item).mpr ⟨hmem, hdate⟩, ?_⟩, hstart, hfinish⟩
          rw [if_pos htype, Option.mem_def.mp hfirst, Option.mem_def.mp hlast]
          rfl
        · refine absurd (List.isEmpty_iff.mpr (List.filterMap_eq_nil_iff.mpr fun item hitem => ?_)) hsome
          obtain ⟨hmem, hdate⟩ := (hexceptions item).mp hitem
          exact if_neg (hweekly item hmem hdate)

end Constructed

theorem resolvePeriod_iff {date : Date} {p : WorkingPeriod} {i : Interval} :
    calendar.resolvePeriod date p = .ok i ↔
      localBoundary calendar.timezone (combine date p.startLocalTime) false = .ok i.1 ∧
        localBoundary calendar.timezone (combine date p.endLocalTime) true = .ok i.2 := by
  unfold resolvePeriod
  simp only [bind_eq_ok, pure_eq_ok]
  constructor
  · intro ⟨_, hstart, _, hfinish, hi⟩
    rw [← hi]
    exact ⟨hstart, hfinish⟩
  · intro ⟨hstart, hfinish⟩
    exact ⟨_, hstart, _, hfinish, rfl⟩

section Day

variable {zones : String → Option ZoneInfo} {version : BusinessCalendarVersion}
  (hconstruct : construct zones version = .ok calendar) (hapart : calendar.timezone.Apart)
  {date : Date}

include hconstruct hapart

/-- The date of a calendar that is open round the clock. -/
theorem openDay_iff (hhours : version.twentyFourSeven = true) :
    calendar.DayLaw version date ↔ Near calendar.timezone (combine date midnight) ∧
      Near calendar.timezone (combine (date + 1) midnight) := by
  have hopen : calendar.version.twentyFourSeven = true := by
    rw [(construct_ok hconstruct).1]
    exact hhours
  rw [← boundary_defined hapart false, ← boundary_defined hapart true]
  constructor
  · intro ⟨intervals, hintervals, _⟩
    obtain ⟨first, last, hfirst, hlast, _⟩ := (intervals_open hopen).mp hintervals
    exact ⟨⟨first, hfirst⟩, last, hlast⟩
  · intro ⟨⟨first, hfirst⟩, last, hlast⟩
    have hlt : first < last := by
      by_contra hback
      have hafter := le_shown_of_end hapart hlast (Int.not_lt.mp hback)
      have hlimit := boundary_shows_le hfirst
      rw [combine_midnight] at hafter hlimit
      have hday : ∀ d : Int, d * day + 180 * (60 * second) < (d + 1) * day := by
        intro d
        rw [Int.add_mul]
        unfold day second
        omega
      exact absurd (Int.le_trans hafter hlimit) (Int.not_le.mpr (hday date))
    refine ⟨_, (intervals_open hopen).mpr ⟨first, last, hfirst, hlast, rfl⟩,
      List.pairwise_singleton _ _, List.forall_mem_singleton.mpr hlt, fun x => ?_⟩
    simp only [opens_open hhours, covers_cons, covers_nil, or_false]
    constructor
    · intro hx
      exact ⟨_, _, first, last, ⟨rfl, rfl⟩, hfirst, hlast, hx⟩
    · intro ⟨start, finish, first', last', ⟨hstart, hfinish⟩, hfirst', hlast', hx⟩
      rw [hstart, hfirst] at hfirst'
      rw [hfinish, hlast] at hlast'
      obtain rfl := Except.ok.inj hfirst'
      obtain rfl := Except.ok.inj hlast'
      exact hx

/-- **The intervals of a date**: they cover its hours, each once, exactly if every bound of the
    hours is found. -/
theorem day_iff : calendar.DayLaw version date ↔ ∀ start finish, Opens version date start finish →
    Near calendar.timezone start ∧ Near calendar.timezone finish := by
  cases hhours : version.twentyFourSeven with
  | true =>
      rw [openDay_iff hconstruct hapart hhours]
      simp only [opens_open hhours]
      constructor
      · intro hnear start finish hopens
        rw [hopens.1, hopens.2]
        exact hnear
      · intro hnear
        exact hnear _ _ ⟨rfl, rfl⟩
  | false =>
      have hversion : calendar.version.twentyFourSeven = false := by
        rw [(construct_ok hconstruct).1]
        exact hhours
      have hhoursIff : ∀ {start finish : LocalDatetime}, _ ↔ Opens version date start finish :=
        hoursOf_iff hconstruct hhours
      unfold DayLaw
      simp only [intervals_eq hversion, bind_eq_ok, pure_eq_ok]
      constructor
      · intro ⟨intervals, ⟨resolved, hresolved, _⟩, _⟩ start finish hopens
        obtain ⟨p, hp, rfl, rfl⟩ := hhoursIff.mpr hopens
        obtain ⟨i, _, hi⟩ := mem_of_forall₂ (mapM_pointwise hresolved).flip hp
        obtain ⟨hstart, hfinish⟩ := resolvePeriod_iff.mp hi
        exact ⟨(boundary_defined hapart false).mp ⟨_, hstart⟩,
          (boundary_defined hapart true).mp ⟨_, hfinish⟩⟩
      · intro hnear
        obtain ⟨resolved, hresolved⟩ : ∃ resolved,
            (calendar.hoursOf date).mapM (calendar.resolvePeriod date) = .ok resolved := by
          refine mapM_ok fun p hp => ?_
          obtain ⟨hstart, hfinish⟩ := hnear _ _ (hhoursIff.mp ⟨p, hp, rfl, rfl⟩)
          obtain ⟨first, hfirst⟩ := (boundary_defined hapart false).mpr hstart
          obtain ⟨last, hlast⟩ := (boundary_defined hapart true).mpr hfinish
          exact ⟨(first, last), resolvePeriod_iff.mpr ⟨hfirst, hlast⟩⟩
        have hrows := mapM_pointwise hresolved
        refine ⟨_, ⟨resolved, hresolved, rfl⟩, mergeIntervals_inSequence resolved,
          mergeIntervals_open, fun x => mergeIntervals_covers.trans ?_⟩
        constructor
        · intro ⟨i, hi, hx⟩
          obtain ⟨p, hp, hi⟩ := mem_of_forall₂ hrows hi
          obtain ⟨hstart, hfinish⟩ := resolvePeriod_iff.mp hi
          exact ⟨_, _, i.1, i.2, hhoursIff.mp ⟨p, hp, rfl, rfl⟩, hstart, hfinish, hx⟩
        · intro ⟨start, finish, first, last, hopens, hfirst, hlast, hx⟩
          obtain ⟨p, hp, rfl, rfl⟩ := hhoursIff.mpr hopens
          obtain ⟨i, hi, hrow⟩ := mem_of_forall₂ hrows.flip hp
          obtain ⟨hstart, hfinish⟩ := resolvePeriod_iff.mp hrow
          obtain rfl := Except.ok.inj (hfirst.symm.trans hstart)
          obtain rfl := Except.ok.inj (hlast.symm.trans hfinish)
          exact ⟨i, hi, hx⟩

end Day

/-! ## 5. Every date and every local time -/

/-- What a calendar promises of a date and two local times: the intervals cover the hours of the
    date, gaps are left at their ends, and the later time is not resolved to the earlier instant. -/
structure Kept (calendar : BusinessCalendar) (version : BusinessCalendarVersion) (date : Date)
    (isEnd : Bool) (earlier later : LocalDatetime) : Prop where
  day : calendar.DayLaw version date
  gapEarlier : GapLaw calendar.timezone earlier isEnd
  gapLater : GapLaw calendar.timezone later isEnd
  mono : ∃ x y, localBoundary calendar.timezone earlier isEnd = .ok x ∧
    localBoundary calendar.timezone later isEnd = .ok y ∧ x ≤ y

/-- **The boundaries of a calendar**, for every date and all local times: its promise is kept
    exactly if the hours of the date are found within 180 minutes, and the local times lie whole
    minutes before the ends of the gaps they fall into, if any. -/
theorem boundaries_law {zones : String → Option ZoneInfo} {version : BusinessCalendarVersion}
    (hconstruct : construct zones version = .ok calendar) (hapart : calendar.timezone.Apart)
    (date : Date) (isEnd : Bool) {earlier later : LocalDatetime} (hle : earlier ≤ later) :
    calendar.Kept version date isEnd earlier later ↔
      (∀ start finish, Opens version date start finish →
        Near calendar.timezone start ∧ Near calendar.timezone finish) ∧
      Aligned calendar.timezone earlier ∧ Aligned calendar.timezone later := by
  rw [← day_iff hconstruct hapart, ← gapLaw_iff hapart isEnd, ← gapLaw_iff hapart isEnd]
  constructor
  · intro hkept
    exact ⟨hkept.day, hkept.gapEarlier, hkept.gapLater⟩
  · intro ⟨hday, hearlier, hlater⟩
    obtain ⟨x, hx⟩ := hearlier.defined hapart
    obtain ⟨y, hy⟩ := hlater.defined hapart
    exact ⟨hday, hearlier, hlater, x, y, hx, hy, boundary_mono hapart hle hearlier hx hy⟩

theorem springForward_apart : springForward.Apart where
  inOrder := List.pairwise_singleton _ _
  apart := ⟨(fun _ ht => nomatch ht), trivial⟩

/-- Saturday until 23:30, which is found at midnight, and Sunday noon. -/
theorem boundaries_law_weekend :
    ∃ calendar, construct (fun _ => some springForward) (weekend ⟨84600000000, by decide⟩) =
      .ok calendar ∧ calendar.Kept (weekend ⟨84600000000, by decide⟩) 19812 true
        (combine 19812 ⟨84600000000, by decide⟩) (combine 19813 ⟨43200000000, by decide⟩) := by
  obtain ⟨calendar, hconstruct⟩ : ∃ calendar, construct (fun _ => some springForward)
      (weekend ⟨84600000000, by decide⟩) = .ok calendar := ⟨_, rfl⟩
  have hzone : calendar.timezone = springForward :=
    (Option.some.inj (construct_ok hconstruct).2.1).symm
  refine ⟨calendar, hconstruct, (boundaries_law hconstruct (hzone ▸ springForward_apart) 19812 true
    (by decide)).mpr ?_⟩
  rw [hzone]
  refine ⟨?_, ?_, ?_⟩
  · intro start finish hopens
    unfold Opens at hopens
    rw [if_neg (by decide)] at hopens
    obtain ⟨_, ⟨item, hitem, _⟩ | ⟨_, p, hp, hday, rfl, rfl⟩⟩ := hopens
    · exact absurd hitem List.not_mem_nil
    · have hfirst : p = ⟨6, ⟨79200000000, by decide⟩, ⟨84600000000, by decide⟩⟩ := by
        rcases List.mem_cons.mp hp with rfl | hp
        · rfl
        · rw [List.mem_singleton.mp hp] at hday
          exact absurd hday (by decide)
      rw [hfirst]
      refine ⟨⟨0, by decide, by decide, fun hskipped => hskipped 1711843200000000 (by decide)⟩,
        30, by decide, by decide, fun hskipped => hskipped 1711846800000000 (by decide)⟩
  · intro _ x hx
    have hgap : FirstAfter springForward (combine 19812 ⟨84600000000, by decide⟩) _ :=
      gap_firstAfter springForward_apart List.mem_cons_self (by decide) (by decide) (by decide)
    rw [hx.unique hgap]
    exact ⟨30, by decide, by decide⟩
  · intro hskipped
    exact absurd (hskipped 1711890000000000) (not_not.mpr (by decide))

/-- Saturday until 23:59:59: the time is in the gap until midnight and is resolved to 00:00:59. -/
theorem gap_left_late :
    ¬ ∀ (zones : String → Option ZoneInfo) (version : BusinessCalendarVersion)
      (calendar : BusinessCalendar) (date : Date) (isEnd : Bool) (earlier later : LocalDatetime),
      construct zones version = .ok calendar → calendar.timezone.Apart → earlier ≤ later →
      calendar.Kept version date isEnd earlier later := by
  intro hclaim
  obtain ⟨calendar, hconstruct⟩ : ∃ calendar, construct (fun _ => some springForward)
      (weekend ⟨86399000000, by decide⟩) = .ok calendar := ⟨_, rfl⟩
  have hzone : calendar.timezone = springForward :=
    (Option.some.inj (construct_ok hconstruct).2.1).symm
  have hkept := hclaim _ _ calendar 19812 true (combine 19812 ⟨86399000000, by decide⟩) _ hconstruct
    (hzone ▸ springForward_apart) (Int.le_refl _)
  have hlaw := hkept.gapEarlier
  rw [hzone] at hlaw
  obtain ⟨x, hfirst, hboundary⟩ := hlaw
    (gap_skipped springForward_apart List.mem_cons_self (by decide) (by decide) (by decide))
  have hresolved : localBoundary springForward (combine 19812 ⟨86399000000, by decide⟩) true =
      .ok 1711846859000000 := by decide +kernel
  obtain rfl := Except.ok.inj (hresolved.symm.trans hboundary)
  have hle : (1711846859000000 : Int) ≤ 1711846800000000 := hfirst.2 (by decide +kernel)
  exact absurd hle (by decide)

end BusinessCalendar

end Helpdesk.Sla
