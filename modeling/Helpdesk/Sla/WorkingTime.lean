/-
  File:      Helpdesk/Sla/WorkingTime.lean
  Subject:   The two walks of a business calendar are adjoint.

  A calendar whose working hours start on whole seconds and whose intervals keep
  to the order of their local dates (`Regular`) is a `Timeline`:
  `business_seconds_between` is its count and `add_business_seconds` its walk.

  * `between_between`: counting is additive at whole seconds;
  * `add_le_iff`: the instant that `k` business seconds reach is at or before `t`
    exactly if `k` business seconds lie before `t`;
  * `regular_of_fixed`: calendars in a zone without offset changes are regular.
-/
import Mathlib
import Helpdesk.Lib.Timeline
import Helpdesk.Sla.Calendar

namespace Helpdesk.Sla

open Helpdesk.Python

theorem second_pos : 0 < second := by
  unfold second
  decide

/-! ## 1. Merged intervals -/

instance : Std.Total Interval.le where
  total a b := by
    rcases lt_trichotomy a.1 b.1 with hlt | heq | hgt
    · exact Or.inl (Or.inl hlt)
    · rcases Int.le_total a.2 b.2 with hle | hle
      · exact Or.inl (Or.inr ⟨heq, hle⟩)
      · exact Or.inr (Or.inr ⟨heq.symm, hle⟩)
    · exact Or.inr (Or.inl hgt)

theorem Interval.le_start {a b : Interval} (h : Interval.le a b) : a.1 ≤ b.1 :=
  h.elim Int.le_of_lt fun heq => Int.le_of_eq heq.1

instance : IsTrans Interval Interval.le where
  trans a b c hab hbc := by
    rcases hab with hab | ⟨hab, hab'⟩
    · exact Or.inl (Int.lt_of_lt_of_le hab (Interval.le_start hbc))
    · rcases hbc with hbc | ⟨hbc, hbc'⟩
      · exact Or.inl (hab ▸ hbc)
      · exact Or.inr ⟨hab.trans hbc, Int.le_trans hab' hbc'⟩

/-- **Merging sorted intervals leaves them in sequence.** The intervals merged so far
    stand last first, and no interval to come starts before the last of them. -/
theorem mergeSorted_inSequence : ∀ {intervals merged : List Interval},
    intervals.Pairwise (fun a b => a.1 ≤ b.1) → merged.Pairwise (fun a b => b.2 ≤ a.1) →
    (∀ a ∈ merged.head?, ∀ b ∈ intervals, a.1 ≤ b.1) →
    InSequence (mergeSorted merged intervals)
  | [], merged, _, hmerged, _ => by
      rw [mergeSorted, InSequence, List.pairwise_reverse]
      exact hmerged
  | interval :: rest, [], hsorted, _, _ => by
      obtain ⟨hfirst, hrest⟩ := List.pairwise_cons.mp hsorted
      rw [mergeSorted]
      refine mergeSorted_inSequence hrest (List.pairwise_singleton _ _) fun a ha b hb => ?_
      obtain rfl := Option.mem_some.mp ha
      exact hfirst b hb
  | (start, finish) :: rest, (first, last) :: merged, hsorted, hmerged, hhead => by
      obtain ⟨hfirst, hrest⟩ := List.pairwise_cons.mp hsorted
      obtain ⟨holder, hmerged'⟩ := List.pairwise_cons.mp hmerged
      have hstart : first ≤ start := hhead _ rfl _ List.mem_cons_self
      rw [mergeSorted]
      split
      · rename_i hgap
        refine mergeSorted_inSequence hrest (List.pairwise_cons.mpr ⟨fun b hb => ?_, hmerged⟩) ?_
        · rcases List.mem_cons.mp hb with rfl | hb
          · exact Int.le_of_lt hgap
          · exact Int.le_trans (holder b hb) hstart
        · intro a ha b hb
          obtain rfl := Option.mem_some.mp ha
          exact hfirst b hb
      · refine mergeSorted_inSequence hrest (List.pairwise_cons.mpr ⟨holder, hmerged'⟩) ?_
        intro a ha b hb
        obtain rfl := Option.mem_some.mp ha
        exact Int.le_trans hstart (hfirst b hb)

theorem mergeIntervals_inSequence (intervals : List Interval) :
    InSequence (mergeIntervals intervals) := by
  have hsorted := List.pairwise_insertionSort Interval.le
    (intervals.filter fun i => i.1 < i.2)
  exact mergeSorted_inSequence (hsorted.imp Interval.le_start) .nil (fun a ha => nomatch ha)

/-- A bound that every interval has, every merged one has; empty ones do not count. -/
theorem mergeSorted_bounds {P Q : Instant → Prop} (hmax : ∀ x y, Q x → Q y → Q (max x y)) :
    ∀ {intervals merged : List Interval}, (∀ i ∈ intervals, P i.1 ∧ Q i.2) →
      (∀ i ∈ merged, P i.1 ∧ Q i.2) → ∀ i ∈ mergeSorted merged intervals, P i.1 ∧ Q i.2
  | [], merged, _, hmerged => by
      rw [mergeSorted]
      intro i hi
      exact hmerged i (List.mem_reverse.mp hi)
  | interval :: rest, [], hall, hmerged => by
      obtain ⟨hfirst, hrest⟩ := List.forall_mem_cons.mp hall
      rw [mergeSorted]
      refine mergeSorted_bounds hmax hrest fun i hi => ?_
      rw [List.mem_singleton.mp hi]
      exact hfirst
  | (start, finish) :: rest, (first, last) :: merged, hall, hmerged => by
      obtain ⟨hfirst, hrest⟩ := List.forall_mem_cons.mp hall
      obtain ⟨hhead, htail⟩ := List.forall_mem_cons.mp hmerged
      rw [mergeSorted]
      split
      · exact mergeSorted_bounds hmax hrest (List.forall_mem_cons.mpr ⟨hfirst, hmerged⟩)
      · exact mergeSorted_bounds hmax hrest
          (List.forall_mem_cons.mpr ⟨⟨hhead.1, hmax _ _ hhead.2 hfirst.2⟩, htail⟩)

theorem mergeIntervals_bounds {P Q : Instant → Prop} (hmax : ∀ x y, Q x → Q y → Q (max x y))
    {intervals : List Interval} (h : ∀ i ∈ intervals, i.1 < i.2 → P i.1 ∧ Q i.2) :
    ∀ i ∈ mergeIntervals intervals, P i.1 ∧ Q i.2 := by
  refine mergeSorted_bounds hmax (fun i hi => ?_) fun i hi => absurd hi List.not_mem_nil
  obtain ⟨hmem, hopen⟩ := List.mem_filter.mp ((List.mem_insertionSort _).mp hi)
  exact h i hmem (of_decide_eq_true hopen)

/-! ## 2. Regular calendars -/

namespace BusinessCalendar

variable {calendar : BusinessCalendar}

theorem intervals_inSequence {date : Date} {is : List Interval}
    (h : calendar.intervals date = .ok is) : InSequence is := by
  unfold intervals at h
  split at h
  · simp only [bind_eq_ok, pure_eq_ok] at h
    obtain ⟨_, _, _, _, rfl⟩ := h
    exact List.pairwise_singleton _ _
  · split at h
    · rw [pure_eq_ok] at h
      subst h
      exact .nil
    · simp only [bind_eq_ok, pure_eq_ok] at h
      obtain ⟨resolved, _, rfl⟩ := h
      exact mergeIntervals_inSequence resolved

/-- **The bounds of a date's intervals**: what holds of every resolved start, and of
    every resolved end, holds of the bounds of the intervals. -/
theorem intervals_bounds {P Q : Instant → Prop} (hmax : ∀ x y, Q x → Q y → Q (max x y))
    {date : Date} {is : List Interval} (h : calendar.intervals date = .ok is)
    (hdays : calendar.version.twentyFourSeven = true →
      (∀ x, calendar.dayStart date = .ok x → P x) ∧
        ∀ x, localBoundary calendar.timezone (combine (date + 1) midnight) true = .ok x → Q x)
    (hperiods : calendar.version.twentyFourSeven = false → ∀ p ∈ calendar.periodsOf date,
      (∀ x, localBoundary calendar.timezone (combine date p.startLocalTime) false = .ok x → P x) ∧
        ∀ x, localBoundary calendar.timezone (combine date p.endLocalTime) true = .ok x → Q x) :
    ∀ i ∈ is, P i.1 ∧ Q i.2 := by
  unfold intervals at h
  split at h
  · rename_i hall
    simp only [bind_eq_ok, pure_eq_ok] at h
    obtain ⟨start, hstart, finish, hfinish, rfl⟩ := h
    intro i hi
    rw [List.mem_singleton.mp hi]
    exact ⟨(hdays hall).1 _ hstart, (hdays hall).2 _ hfinish⟩
  · rename_i hsome
    split at h
    · rw [pure_eq_ok] at h
      subst h
      exact fun i hi => absurd hi List.not_mem_nil
    · simp only [bind_eq_ok, pure_eq_ok] at h
      obtain ⟨resolved, hresolved, rfl⟩ := h
      refine mergeIntervals_bounds hmax fun i hi _ => ?_
      obtain ⟨p, hp, hi⟩ := mem_of_forall₂ (mapM_pointwise hresolved) hi
      unfold resolvePeriod at hi
      simp only [bind_eq_ok, pure_eq_ok] at hi
      obtain ⟨start, hstart, finish, hfinish, rfl⟩ := hi
      obtain ⟨hP, hQ⟩ := hperiods (Bool.eq_false_iff.mpr hsome) p hp
      exact ⟨hP _ hstart, hQ _ hfinish⟩

/-- **Working hours start on whole seconds, and the intervals keep to the order of
    their local dates.** -/
structure Regular (calendar : BusinessCalendar) : Prop where
  whole : ∀ date, ∀ p ∈ calendar.periodsOf date, second ∣ (p.startLocalTime.val : Int)
  past : ∀ date is x, calendar.intervals date = .ok is → date < calendar.timezone.localDate x →
    ∀ i ∈ is, i.2 ≤ x
  future : ∀ date is x, calendar.intervals date = .ok is → calendar.timezone.localDate x < date →
    ∀ i ∈ is, x ≤ i.1
  first : ∀ date is x, calendar.intervals date = .ok is → calendar.dayStart date = .ok x →
    ∀ i ∈ is, x ≤ i.1

/-- A fold that picks one of its arguments at every step keeps what all of them have. -/
theorem foldl_choice {P : Instant → Prop} {pick : Instant → Instant → Instant}
    (hpick : ∀ x y, pick x y = x ∨ pick x y = y) :
    ∀ {xs : List Instant} {x : Instant}, P x → (∀ y ∈ xs, P y) → P (xs.foldl pick x)
  | [], _, hx, _ => hx
  | y :: ys, x, hx, hall => by
      obtain ⟨hy, hys⟩ := List.forall_mem_cons.mp hall
      rw [List.foldl_cons]
      refine foldl_choice hpick ?_ hys
      rcases hpick x y with h | h <;> rw [h]
      exacts [hx, hy]

/-- A local time on a whole second is an instant on one. -/
theorem localBoundary_whole {zone : ZoneInfo} {naive : LocalDatetime} {isEnd : Bool} {x : Instant}
    (h : localBoundary zone naive isEnd = .ok x) (hnaive : second ∣ naive) : second ∣ x := by
  have hutc : ∀ {fold : Bool} {naive : LocalDatetime}, second ∣ naive →
      second ∣ zone.toUtc fold naive :=
    fun h => Int.dvd_sub h (Int.dvd_mul_left _ _)
  have hprobe : ∀ {steps : Nat} {naive : LocalDatetime}, second ∣ naive →
      probeBoundary zone steps naive = .ok x → second ∣ x := by
    intro steps
    induction steps with
    | zero => exact fun _ h => nomatch h
    | succ steps ih =>
        intro naive hnaive h
        have hnext : second ∣ naive + 60 * second := Int.dvd_add hnaive (Int.dvd_mul_left _ _)
        rw [probeBoundary] at h
        split at h
        · rw [← Except.ok.inj h]
          exact hutc hnext
        · exact ih hnext h
  unfold localBoundary at h
  have hall : ∀ y ∈ boundaryCandidates zone naive, second ∣ y := by
    intro y hy
    obtain ⟨fold, _, hfold⟩ := List.mem_filterMap.mp hy
    dsimp only at hfold
    split at hfold
    · rw [← Option.some.inj hfold]
      exact hutc hnaive
    · cases hfold
  split at h
  · exact hprobe hnaive h
  · rename_i first rest hcandidates
    rw [hcandidates, List.forall_mem_cons] at hall
    rw [← Except.ok.inj h]
    refine foldl_choice (fun x y => ?_) hall.1 hall.2
    cases isEnd
    · exact min_choice x y
    · exact max_choice x y

theorem second_dvd_combine {date : Date} {time : TimeOfDay} (h : second ∣ (time.val : Int)) :
    second ∣ combine date time := by
  have hday : second ∣ day := ⟨86400, rfl⟩
  exact Int.dvd_add (Dvd.dvd.mul_left hday date) h

/-- The intervals start on whole seconds. -/
theorem Regular.aligned (hregular : calendar.Regular) {date : Date} {is : List Interval}
    (h : calendar.intervals date = .ok is) : ∀ i ∈ is, second ∣ i.1 := by
  have hbounds : ∀ i ∈ is, second ∣ i.1 ∧ True := by
    refine intervals_bounds (P := fun x => second ∣ x) (Q := fun _ => True)
      (fun _ _ _ _ => trivial) h (fun _ => ⟨fun x hx => ?_, fun _ _ => trivial⟩)
      fun _ p hp => ⟨fun x hx => ?_, fun _ _ => trivial⟩
    · exact localBoundary_whole hx (second_dvd_combine (Int.dvd_zero _))
    · exact localBoundary_whole hx (second_dvd_combine (hregular.whole date p hp))
  exact fun i hi => (hbounds i hi).1

/-- The intervals of a date, none where they cannot be resolved. -/
def slots (calendar : BusinessCalendar) (date : Date) : List Slot :=
  match calendar.intervals date with
  | .ok is => is
  | .error _ => []

theorem slots_of_ok {date : Date} {is : List Interval} (h : calendar.intervals date = .ok is) :
    calendar.slots date = is := by
  unfold slots
  rw [h]

/-- What holds of resolved intervals and of none at all holds of the slots. -/
theorem slots_cases {P : List Slot → Prop} {date : Date} (hnil : P [])
    (hok : ∀ is, calendar.intervals date = .ok is → P is) : P (calendar.slots date) := by
  unfold slots
  split
  · rename_i is his
    exact hok is his
  · exact hnil

/-- **A regular calendar is a time line.** -/
def Regular.timeline (hregular : calendar.Regular) : Timeline second where
  slots := calendar.slots
  date := calendar.timezone.localDate
  unit_pos := second_pos
  inSequence _ := slots_cases .nil fun _ h => intervals_inSequence h
  aligned _ := slots_cases (P := fun is => ∀ i ∈ is, second ∣ i.1)
    (fun _ hi => absurd hi List.not_mem_nil) fun _ h => hregular.aligned h
  past date x hx := slots_cases (P := fun is => ∀ i ∈ is, i.2 ≤ x)
    (fun _ hi => absurd hi List.not_mem_nil) fun _ h => hregular.past date _ x h hx
  future date x hx := slots_cases (P := fun is => ∀ i ∈ is, x ≤ i.1)
    (fun _ hi => absurd hi List.not_mem_nil) fun _ h => hregular.future date _ x h hx

/-! ## 3. Counting -/

open Finset

/-- The loop over `days` dates: every date is resolved, and their seconds add up. -/
theorem betweenFrom_ok {lower upper : Instant} : ∀ {days : Nat} {date m : Int},
    betweenFrom calendar lower upper days date = .ok m ↔
      (∀ d ∈ Ico date (date + days), ∃ is, calendar.intervals d = .ok is) ∧
        m = ∑ d ∈ Ico date (date + days), worked second lower upper (calendar.slots d)
  | 0, date, m => by
      rw [betweenFrom, Except.ok.injEq]
      simp [eq_comm]
  | days + 1, date, m => by
      have hdates : date < date + ((days + 1 : Nat) : Int) := by omega
      have hrest : date + ((days + 1 : Nat) : Int) = date + 1 + (days : Int) := by omega
      have hmem : ∀ d, d ∈ Ico date (date + ((days + 1 : Nat) : Int)) ↔
          d = date ∨ d ∈ Ico (date + 1) (date + 1 + (days : Int)) := by
        intro d
        rw [mem_Ico, mem_Ico]
        omega
      rw [betweenFrom, Timeline.sum_from hdates, hrest]
      simp only [bind_eq_ok, pure_eq_ok, betweenFrom_ok]
      constructor
      · rintro ⟨is, his, k, ⟨hall, rfl⟩, rfl⟩
        refine ⟨fun d hd => ?_, ?_⟩
        · rcases (hmem d).mp (hrest ▸ hd) with rfl | hd
          · exact ⟨is, his⟩
          · exact hall d hd
        · rw [slots_of_ok his]
          rfl
      · rintro ⟨hall, rfl⟩
        obtain ⟨is, his⟩ := hall date (hrest ▸ (hmem date).mpr (Or.inl rfl))
        refine ⟨is, his, _, ⟨fun d hd => hall d (hrest ▸ (hmem d).mpr (Or.inr hd)), rfl⟩, ?_⟩
        rw [slots_of_ok his]
        rfl

/-- **`business_seconds_between` counts**, where it resolves the dates of its ends. -/
theorem between_ok (hregular : calendar.Regular) {lower upper : Int} {m : Int} :
    calendar.businessSecondsBetween lower upper = .ok m ↔
      (lower < upper → ∀ d ∈ hregular.timeline.dates lower upper,
        ∃ is, calendar.intervals d = .ok is) ∧
        m = hregular.timeline.between lower upper := by
  unfold businessSecondsBetween
  by_cases hle : upper ≤ lower
  · rw [if_pos hle, Timeline.between_empty hle, Except.ok.injEq, eq_comm]
    exact ⟨fun h => ⟨fun hlt => absurd hle (Int.not_le.mpr hlt), h⟩, fun h => h.2⟩
  · rw [if_neg hle]
    dsimp only
    rw [betweenFrom_ok]
    have hlt : lower < upper := Int.not_le.mp hle
    have hdates : Ico (calendar.timezone.localDate lower) (calendar.timezone.localDate lower +
        ((calendar.timezone.localDate upper + 1 - calendar.timezone.localDate lower).toNat : Int)) =
        hregular.timeline.dates lower upper :=
      Timeline.dates_toNat hregular.timeline
    rw [hdates]
    exact ⟨fun h => ⟨fun _ => h.1, h.2⟩, fun h => ⟨h.1 hlt, h.2⟩⟩

/-- **Counting is additive at whole seconds.** -/
theorem between_between (hregular : calendar.Regular) {l s u a b : Int} (hls : l ≤ s)
    (hsu : s ≤ u) (hl : second ∣ l) (hs : second ∣ s)
    (ha : calendar.businessSecondsBetween l s = .ok a)
    (hb : calendar.businessSecondsBetween s u = .ok b) :
    calendar.businessSecondsBetween l u = .ok (a + b) := by
  rw [between_ok hregular] at ha hb ⊢
  obtain ⟨hla, rfl⟩ := ha
  obtain ⟨hlb, rfl⟩ := hb
  refine ⟨fun hlt d hd => ?_, Timeline.between_add hls hsu hl hs⟩
  rcases Int.lt_or_eq_of_le hls with hls | rfl
  · rcases Int.lt_or_eq_of_le hsu with hsu | rfl
    · rcases mem_union.mp (Timeline.dates_subset hd) with hd | hd
      · exact hla hls d hd
      · exact hlb hsu d hd
    · exact hla hls d hd
  · exact hlb hlt d hd

theorem between_nonneg (hregular : calendar.Regular) {l u m : Int}
    (h : calendar.businessSecondsBetween l u = .ok m) : 0 ≤ m := by
  rw [between_ok hregular] at h
  rw [h.2]
  exact Timeline.between_nonneg

/-! ## 4. Walking -/

theorem consume_eq_walk (current : Instant) : ∀ (intervals : List Interval) (remaining : Int),
    consume current remaining intervals = walk second current remaining intervals
  | [], remaining => rfl
  | (start, finish) :: rest, remaining => by
      unfold consume walk
      simp only [consume_eq_walk current rest]
      rfl

/-- The loop of `add_business_seconds` is the walk from date to date. -/
theorem addFrom_reaches (hregular : calendar.Regular) : ∀ {days : Nat} {date : Date}
    {current T : Instant} {remaining : Int},
    addFrom calendar days date current remaining = .ok T →
    hregular.timeline.Reaches date current remaining T
  | 0, _, _, _, _, h => nomatch h
  | days + 1, date, current, T, remaining, h => by
      rw [addFrom] at h
      simp only [bind_eq_ok] at h
      obtain ⟨is, his, h⟩ := h
      rw [consume_eq_walk] at h
      have hslots : hregular.timeline.slots date = is := slots_of_ok his
      split at h
      · rename_i reached hwalk
        rw [pure_eq_ok] at h
        subst h
        exact .here (hslots ▸ hwalk)
      · rename_i left hwalk
        rw [bind_eq_ok] at h
        obtain ⟨first, hfirst, h⟩ := h
        refine .next (hslots ▸ hwalk) ?_ (addFrom_reaches hregular h)
        exact slots_cases (P := fun is => ∀ i ∈ is, first ≤ i.1)
          (fun _ hi => absurd hi List.not_mem_nil)
          fun is his => hregular.first (date + 1) is first his hfirst

/-- **`add_business_seconds` is the lower adjoint of `business_seconds_between`**: the
    instant it reaches is at or before `t` exactly if so many seconds lie before `t`. -/
theorem add_le_iff (hregular : calendar.Regular) {s t T k m : Int}
    (hadd : calendar.addBusinessSeconds s k = .ok T) (hst : s ≤ t)
    (hbetween : calendar.businessSecondsBetween s t = .ok m) : T ≤ t ↔ k ≤ m := by
  have hm := (between_ok hregular).mp hbetween
  unfold addBusinessSeconds at hadd
  split at hadd
  · cases hadd
  · rename_i hnonneg
    split at hadd
    · rename_i hzero
      obtain rfl := Except.ok.inj hadd
      have := between_nonneg hregular hbetween
      omega
    · rename_i hnonzero
      rw [hm.2]
      exact Timeline.reaches_iff (addFrom_reaches hregular hadd) (by omega) t

/-! ## 5. Zones without offset changes -/

section Fixed

variable {zone : ZoneInfo}

theorem localBoundary_fixed (hzone : zone.transitions = []) (naive : LocalDatetime)
    (isEnd : Bool) : localBoundary zone naive isEnd = .ok (naive - zone.before * second) := by
  have hutc : ∀ fold, zone.toUtc fold naive = naive - zone.before * second := by
    intro fold
    unfold ZoneInfo.toUtc ZoneInfo.wallOffset
    rw [hzone]
    rfl
  have hshows : zone.astimezone (naive - zone.before * second) = naive := by
    unfold ZoneInfo.astimezone ZoneInfo.utcoffset
    rw [hzone]
    exact Int.sub_add_cancel _ _
  have hcandidates : boundaryCandidates zone naive =
      [naive - zone.before * second, naive - zone.before * second] := by
    unfold boundaryCandidates
    simp only [List.filterMap_cons, hutc, hshows, if_true, List.filterMap_nil]
  unfold localBoundary
  rw [hcandidates]
  cases isEnd
  · exact congrArg Except.ok (min_self _)
  · exact congrArg Except.ok (max_self _)

/-- The bounds of a date in local time. -/
theorem date_bounds {date offset x : Int} :
    (date < (x + offset) / day → (date + 1) * day - offset ≤ x) ∧
      ((x + offset) / day < date → x ≤ date * day - offset) := by
  unfold day
  constructor <;> intro h <;> omega

theorem time_bounds {date offset : Int} {time : Nat} (h : time < 86400000000) :
    date * day - offset ≤ date * day + time - offset ∧
      date * day + time - offset ≤ (date + 1) * day - offset := by
  unfold day
  omega

theorem combine_midnight (date : Int) : combine date midnight = date * day :=
  Int.add_zero _

/-- **Calendars in a zone without offset changes are regular.** -/
theorem regular_of_fixed (hzone : calendar.timezone.transitions = [])
    (hwhole : ∀ date, ∀ p ∈ calendar.periodsOf date, second ∣ (p.startLocalTime.val : Int)) :
    calendar.Regular := by
  have hlocal : ∀ x, calendar.timezone.localDate x =
      (x + calendar.timezone.before * second) / day := by
    intro x
    unfold ZoneInfo.localDate ZoneInfo.astimezone ZoneInfo.utcoffset dateOf
    rw [hzone]
    rfl
  have hwithin : ∀ {date : Int} {is : List Interval}, calendar.intervals date = .ok is →
      ∀ i ∈ is, date * day - calendar.timezone.before * second ≤ i.1 ∧
        i.2 ≤ (date + 1) * day - calendar.timezone.before * second := by
    intro date is his
    refine intervals_bounds
      (P := fun x => date * day - calendar.timezone.before * second ≤ x)
      (Q := fun x => x ≤ (date + 1) * day - calendar.timezone.before * second)
      (fun _ _ hx hy => Int.max_le.mpr ⟨hx, hy⟩) his
      (fun _ => ⟨fun x hx => ?_, fun x hx => ?_⟩) fun _ p hp => ⟨fun x hx => ?_, fun x hx => ?_⟩
    · unfold dayStart at hx
      rw [localBoundary_fixed hzone] at hx
      rw [← Except.ok.inj hx]
      exact (time_bounds midnight.isLt).1
    · rw [localBoundary_fixed hzone, combine_midnight] at hx
      exact Int.le_of_eq (Except.ok.inj hx).symm
    · rw [localBoundary_fixed hzone] at hx
      rw [← Except.ok.inj hx]
      exact (time_bounds p.startLocalTime.isLt).1
    · rw [localBoundary_fixed hzone] at hx
      rw [← Except.ok.inj hx]
      exact (time_bounds p.endLocalTime.isLt).2
  refine ⟨hwhole, fun date is x his hx i hi => ?_, fun date is x his hx i hi => ?_,
    fun date is x his hx i hi => ?_⟩
  · rw [hlocal] at hx
    exact Int.le_trans (hwithin his i hi).2 (date_bounds.1 hx)
  · rw [hlocal] at hx
    exact Int.le_trans (date_bounds.2 hx) (hwithin his i hi).1
  · unfold dayStart at hx
    rw [localBoundary_fixed hzone, combine_midnight] at hx
    exact Int.le_trans (Int.le_of_eq (Except.ok.inj hx).symm) (hwithin his i hi).1

end Fixed

/-! ## 6. Constructed calendars -/

/-- Working periods and custom hours start on whole seconds. -/
def WholeStarts (version : BusinessCalendarVersion) : Prop :=
  (∀ p ∈ version.workingPeriods, second ∣ (p.startLocalTime.val : Int)) ∧
    ∀ item ∈ version.exceptions, ∀ start ∈ item.startLocalTime, second ∣ (start.val : Int)

instance (version : BusinessCalendarVersion) : Decidable (WholeStarts version) :=
  inferInstanceAs (Decidable (_ ∧ _))

theorem construct_ok {zones : String → Option ZoneInfo} {version : BusinessCalendarVersion}
    (h : construct zones version = .ok calendar) :
    calendar.version = version ∧ zones version.timezoneName = some calendar.timezone ∧
      calendar.periods = periodsOn version.workingPeriods ∧
      calendar.exceptions = fun date =>
        version.exceptions.filter fun item => item.exceptionDate = date := by
  unfold construct at h
  split at h
  · rename_i zone hzone
    simp only [bind_eq_ok, pure_eq_ok] at h
    obtain ⟨_, rfl, periods, hperiods, exceptions, hexceptions, rfl⟩ := h
    refine ⟨rfl, hzone, ?_, ?_⟩
    · unfold validatedPeriods at hperiods
      rw [bind_eq_ok] at hperiods
      obtain ⟨_, _, hperiods⟩ := hperiods
      split at hperiods
      · rw [bind_eq_ok] at hperiods
        obtain ⟨_, hthrow, _⟩ := hperiods
        exact (throw_ne_ok.mp hthrow).elim
      · exact (pure_eq_ok.mp hperiods).symm
    · unfold validatedExceptions at hexceptions
      rw [bind_eq_ok] at hexceptions
      obtain ⟨_, _, hexceptions⟩ := hexceptions
      exact (pure_eq_ok.mp hexceptions).symm
  · rw [bind_eq_ok] at h
    obtain ⟨_, hthrow, _⟩ := h
    exact (throw_ne_ok.mp hthrow).elim

/-- The hours of a date start on whole seconds. -/
theorem periodsOf_whole {zones : String → Option ZoneInfo} {version : BusinessCalendarVersion}
    (h : construct zones version = .ok calendar) (hwhole : WholeStarts version) (date : Date) :
    ∀ p ∈ calendar.periodsOf date, second ∣ (p.startLocalTime.val : Int) := by
  obtain ⟨_, _, hperiods, hexceptions⟩ := construct_ok h
  intro p hp
  unfold periodsOf at hp
  dsimp only at hp
  split at hp
  · rw [hperiods] at hp
    unfold periodsOn at hp
    exact hwhole.1 p (List.mem_filter.mp ((List.mem_insertionSort _).mp hp)).1
  · obtain ⟨item, hitem, hp⟩ := List.mem_filterMap.mp hp
    rw [hexceptions] at hitem
    split at hp
    · rw [← Option.some.inj hp]
      cases hstart : item.startLocalTime with
      | none => exact Int.dvd_zero _
      | some start => exact hwhole.2 item (List.mem_filter.mp hitem).1 start hstart
    · cases hp

end BusinessCalendar

end Helpdesk.Sla
