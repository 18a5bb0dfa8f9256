/-
  File:      Helpdesk/Sla/AlwaysOpen.lean
  Subject:   Calendars that are open around the clock (apps/api/app/sla/calendar.py).

  The slot of a date goes from its midnight to the next one; a midnight that is repeated is
  taken at its first instant where a slot begins and at its last one where a slot ends.

  * `midnight_of_keeps`: a midnight that no change repeats has one instant;
  * `neverCloses_iff`: seconds are counted and added without gap or overlap exactly if no
    change repeats a midnight and every change that skips one ends soon, on a whole minute.
-/
import Mathlib
import Helpdesk.Python.ClockChanges
import Helpdesk.Sla.CalendarLaws

namespace Helpdesk.Sla

open Helpdesk.Python Finset

/-- No change repeats a midnight, and one that skips a midnight ends on a whole minute, at most
    180 of them later. -/
def KeepsMidnights (zone : ZoneInfo) : Prop :=
  ∀ offset t, (offset, t) ∈ zone.changes → ∀ date : Int,
    ZoneInfo.Transition.low offset t * second ≤ date * day →
    date * day < ZoneInfo.Transition.high offset t * second →
      offset < t.offset ∧ 60 ∣ ZoneInfo.Transition.high offset t ∧
        ZoneInfo.Transition.high offset t * second ≤ date * day + 180 * (60 * second)

namespace BusinessCalendar

open ZoneInfo (Transition.low Transition.high)

variable {calendar : BusinessCalendar} {zone : ZoneInfo} {offset naive x : Int} {t : Transition}

/-- Seconds are counted and added as the clock passes. -/
structure NeverCloses (calendar : BusinessCalendar) : Prop where
  counts : ∀ start finish : Int, second ∣ start → second ∣ finish → start ≤ finish →
    calendar.businessSecondsBetween start finish = .ok ((finish - start) / second)
  /-- as far as the search goes -/
  adds : ∀ start n : Int, second ∣ start → 0 ≤ n →
    (0 < n → calendar.timezone.localDate (start + n * second - 1) <
      calendar.timezone.localDate start + maxSearchDays) →
    calendar.addBusinessSeconds start n = .ok (start + n * second)

/-! ## 1. Local times around a change -/

/-- The probe ends whole minutes after the local time, where the clock shows them. -/
theorem probeBoundary_found : ∀ {steps : Nat} {naive : Int},
    probeBoundary zone steps naive = .ok x →
      ∃ k : Int, 1 ≤ k ∧ k ≤ steps ∧ zone.toUtc false (naive + k * (60 * second)) = x ∧
        zone.astimezone x = naive + k * (60 * second)
  | 0, _, h => nomatch h
  | steps + 1, naive, h => by
      rw [probeBoundary] at h
      split at h
      · rename_i hshows
        obtain rfl := Except.ok.inj h
        rw [← Int.one_mul (60 * second)] at hshows
        exact ⟨1, Int.le_refl _, by omega, by rw [Int.one_mul], hshows⟩
      · obtain ⟨k, hk, hsteps, hfound, hshows⟩ := probeBoundary_found h
        have hnext : naive + 60 * second + k * (60 * second) = naive + (k + 1) * (60 * second) := by
          rw [Int.add_mul]
          omega
        rw [hnext] at hfound hshows
        exact ⟨k + 1, by omega, by omega, hfound, hshows⟩

section Change

variable (hapart : zone.Apart) (hchange : (offset, t) ∈ zone.changes)
  (hlow : Transition.low offset t * second ≤ naive)
  (hhigh : naive < Transition.high offset t * second)

include hapart hchange hlow hhigh

/-- A local time that a change skips is shown by neither of the instants found for it. -/
theorem skipped_not_shown (hforward : offset < t.offset) (fold : Bool) :
    zone.astimezone (zone.toUtc fold naive) ≠ naive := by
  obtain ⟨hfirst, hlast⟩ :=
    ZoneInfo.found_within hapart.inOrder hapart.apart hchange hlow hhigh
  have hearly : Transition.low offset t = t.utc + offset := by
    unfold Transition.low
    omega
  have hlate : Transition.high offset t = t.utc + t.offset := by
    unfold Transition.high
    omega
  cases fold with
  | false =>
      have hreached : t.utc * second ≤ naive - offset * second := by
        rw [hearly, Int.add_mul] at hlow
        omega
      have hmore : Transition.high offset t * second ≤
          zone.astimezone (naive - offset * second) := by
        refine ZoneInfo.le_shown hapart.inOrder hapart.apart hchange hreached (Int.le_refl _) ?_
        rw [hlate, Int.add_mul]
        omega
      intro hshows
      rw [show zone.toUtc false naive = naive - offset * second from hfirst] at hshows
      exact absurd hshows.symm (Int.ne_of_lt (Int.lt_of_lt_of_le hhigh hmore))
  | true =>
      have hbefore : naive - t.offset * second < t.utc * second := by
        rw [hlate, Int.add_mul] at hhigh
        omega
      have hless : zone.astimezone (naive - t.offset * second) < naive := by
        refine ZoneInfo.shown_lt hapart.inOrder hapart.apart hchange hlow hbefore ?_
        unfold second
        omega
      intro hshows
      rw [show zone.toUtc true naive = naive - t.offset * second from hlast] at hshows
      exact absurd hshows (Int.ne_of_lt hless)

/-- A local time that a change repeats: the first instant is before the change, the last one not,
    and both show it. -/
theorem repeated_shown (hback : t.offset < offset) :
    zone.toUtc false naive < t.utc * second ∧ t.utc * second ≤ zone.toUtc true naive ∧
      (∀ fold, zone.astimezone (zone.toUtc fold naive) = naive) ∧
      (∀ y, y < zone.toUtc false naive → zone.astimezone y < naive) ∧
      ∀ y, zone.toUtc true naive ≤ y → naive ≤ zone.astimezone y := by
  obtain ⟨hfirst, hlast⟩ :=
    ZoneInfo.found_within hapart.inOrder hapart.apart hchange hlow hhigh
  have hfirst : zone.toUtc false naive = naive - offset * second := hfirst
  have hlast : zone.toUtc true naive = naive - t.offset * second := hlast
  have hbefore : naive - offset * second < t.utc * second := by
    unfold Transition.high second at *
    omega
  have hafter : t.utc * second ≤ naive - t.offset * second := by
    unfold Transition.low second at *
    omega
  rw [hfirst, hlast]
  refine ⟨hbefore, hafter, fun fold => ?_, fun y hy => ?_, fun y hy => ?_⟩
  · cases fold with
    | false =>
        rw [hfirst]
        have hshows := ZoneInfo.shown_before hapart.inOrder hapart.apart hchange hbefore (by omega)
        exact hshows.trans (Int.sub_add_cancel _ _)
    | true =>
        rw [hlast]
        have hshows := ZoneInfo.shown_after hapart.inOrder hapart.apart hchange hafter (by omega)
        exact hshows.trans (Int.sub_add_cancel _ _)
  · exact ZoneInfo.shown_lt hapart.inOrder hapart.apart hchange hlow (Int.lt_trans hy hbefore)
      (Int.add_lt_of_lt_sub_right hy)
  · exact ZoneInfo.le_shown hapart.inOrder hapart.apart hchange (Int.le_trans hafter hy)
      (Int.le_of_lt hhigh) (Int.le_add_of_sub_right_le hy)

end Change

/-! ## 2. Midnights with one instant -/

/-- The instant at which a date begins and the one before it ends. -/
structure Midnight (zone : ZoneInfo) (date x : Int) : Prop where
  begins : localBoundary zone (combine date midnight) false = .ok x
  ends : localBoundary zone (combine date midnight) true = .ok x
  before : ∀ y, y < x → zone.localDate y < date
  after : ∀ y, x ≤ y → date ≤ zone.localDate y

theorem localDate_lt_iff {date : Int} : zone.localDate x < date ↔ zone.astimezone x < date * day :=
  Int.ediv_lt_iff_lt_mul (by decide)

theorem le_localDate_iff {date : Int} : date ≤ zone.localDate x ↔ date * day ≤ zone.astimezone x :=
  Int.le_ediv_iff_mul_le (by decide)

/-- The end of a change that sets the clock forward is found at the change. -/
theorem forward_found (hapart : zone.Apart) (hchange : (offset, t) ∈ zone.changes)
    (hforward : offset < t.offset) :
    zone.toUtc false (Transition.high offset t * second) = t.utc * second ∧
      zone.astimezone (t.utc * second) = Transition.high offset t * second := by
  have hlate : Transition.high offset t = t.utc + t.offset := by
    unfold Transition.high
    omega
  have hend : Transition.high offset t * second - t.offset * second = t.utc * second := by
    rw [hlate, Int.add_mul, Int.add_sub_cancel]
  constructor
  · exact (ZoneInfo.found_end hapart.inOrder hapart.apart hchange).trans hend
  · have hshows := ZoneInfo.shown_after hapart.inOrder hapart.apart hchange (x := t.utc * second)
      (Int.le_refl _) (by omega)
    refine hshows.trans ?_
    omega

/-- **Midnights have one instant** where no change repeats one. -/
theorem midnight_of_keeps (hapart : zone.Apart) (hkeeps : KeepsMidnights zone) (date : Int) :
    ∃ x, Midnight zone date x := by
  cases hapart.place (date * day) with
  | @once x honce =>
      have hboundary : ∀ isEnd, localBoundary zone (combine date midnight) isEnd = .ok x := by
        intro isEnd
        have hutc : ∀ fold, zone.toUtc fold (date * day) = x := honce.found
        have hshown : ∀ fold, zone.astimezone (zone.toUtc fold (date * day)) = date * day :=
          fun fold => (hutc fold).symm ▸ honce.shows
        rw [combine_midnight, shown_of_candidates (hshown false) (hshown true), hutc, hutc]
        cases isEnd
        · exact congrArg Except.ok (min_self x)
        · exact congrArg Except.ok (max_self x)
      exact ⟨x, hboundary false, hboundary true, fun y hy => localDate_lt_iff.mpr (honce.before y hy),
        fun y hy => le_localDate_iff.mpr (honce.after y hy)⟩
  | @repeated offset t hchange hlow hhigh hback =>
      have hforward := (hkeeps offset t hchange date hlow hhigh).1
      exact absurd hback (Int.lt_asymm hforward)
  | @skipped offset t hchange hlow hhigh hforward =>
      obtain ⟨_, hminute, hlimit⟩ := hkeeps offset t hchange date hlow hhigh
      obtain ⟨hfound, hshows⟩ := forward_found hapart hchange hforward
      have hprobe : probeBoundary zone 180 (date * day) = .ok (t.utc * second) := by
        rw [← hfound] at hshows ⊢
        refine probeBoundary_gap hshows
          (Int.dvd_sub (Int.mul_dvd_mul hminute (Int.dvd_refl _)) ?_) hhigh hlimit
          fun n hn hn' => skipped_not_shown hapart hchange (Int.le_trans hlow hn) hn' hforward false
        exact Dvd.dvd.mul_left ⟨1440, rfl⟩ date
      have hboundary : ∀ isEnd, localBoundary zone (combine date midnight) isEnd =
          .ok (t.utc * second) := by
        intro isEnd
        rw [combine_midnight, probed_of_candidates
          (skipped_not_shown hapart hchange hlow hhigh hforward) isEnd, hprobe]
      refine ⟨_, hboundary false, hboundary true, fun y hy => ?_, fun y hy => ?_⟩
      · refine localDate_lt_iff.mpr ?_
        refine ZoneInfo.shown_lt hapart.inOrder hapart.apart hchange hlow hy ?_
        unfold Transition.low second at *
        omega
      · refine le_localDate_iff.mpr (Int.le_trans (Int.le_of_lt hhigh) ?_)
        refine ZoneInfo.le_shown hapart.inOrder hapart.apart hchange hy (Int.le_refl _) ?_
        unfold Transition.high second at *
        omega

/-! ## 3. Dates without gap or overlap -/

theorem second_dvd_midnight (date : Int) : second ∣ combine date midnight :=
  second_dvd_combine (Int.dvd_zero _)

/-- The slot of a date. -/
theorem intervals_open (hopen : calendar.version.twentyFourSeven = true) {date : Date}
    {is : List Interval} :
    calendar.intervals date = .ok is ↔ ∃ first last, calendar.dayStart date = .ok first ∧
      localBoundary calendar.timezone (combine (date + 1) midnight) true = .ok last ∧
      is = [(first, last)] := by
  unfold intervals
  rw [if_pos hopen]
  simp only [bind_eq_ok, pure_eq_ok]
  constructor
  · rintro ⟨first, hfirst, last, hlast, rfl⟩
    exact ⟨first, last, hfirst, hlast, rfl⟩
  · rintro ⟨first, last, hfirst, hlast, rfl⟩
    exact ⟨first, hfirst, last, hlast, rfl⟩

section Midnights

variable (hopen : calendar.version.twentyFourSeven = true) {x : Int → Int}
  (hmidnights : ∀ date, Midnight calendar.timezone date (x date))

include hmidnights

theorem midnight_whole (date : Int) : second ∣ x date :=
  localBoundary_whole (hmidnights date).begins (second_dvd_midnight date)

theorem midnight_mono (date : Int) : x date ≤ x (date + 1) := by
  by_contra hlater
  have hbefore := (hmidnights date).before (x (date + 1)) (Int.not_le.mp hlater)
  have hafter := (hmidnights (date + 1)).after (x (date + 1)) (Int.le_refl _)
  exact absurd (Int.lt_trans (Int.lt_succ date) (Int.lt_of_le_of_lt hafter hbefore)) (Int.lt_irrefl _)

theorem midnight_le_iff {date y : Int} : x date ≤ y ↔ date ≤ calendar.timezone.localDate y := by
  constructor
  · exact (hmidnights date).after y
  · intro hdate
    by_contra hearly
    exact absurd hdate (Int.not_le.mpr ((hmidnights date).before y (Int.not_le.mp hearly)))

include hopen

theorem intervals_midnights (date : Int) :
    calendar.intervals date = .ok [(x date, x (date + 1))] :=
  (intervals_open hopen).mpr
    ⟨_, _, (hmidnights date).begins, (hmidnights (date + 1)).ends, rfl⟩

/-- **Counting**: the slots of the dates are one slot around both instants. -/
theorem counts_of_midnights {start finish : Int} (hstart : second ∣ start)
    (hle : start ≤ finish) :
    calendar.businessSecondsBetween start finish = .ok ((finish - start) / second) := by
  rcases Int.lt_or_eq_of_le hle with hlt | rfl
  · obtain ⟨first, hstartDate⟩ : ∃ d : Int, calendar.timezone.localDate start = d := ⟨_, rfl⟩
    obtain ⟨last, hfinishDate⟩ : ∃ d : Int, calendar.timezone.localDate finish = d := ⟨_, rfl⟩
    have hfirst : x first ≤ start := (midnight_le_iff hmidnights).mpr (Int.le_of_eq hstartDate.symm)
    have hlast : finish < x (last + 1) := by
      by_contra hpast
      have hlater := (midnight_le_iff hmidnights).mp (Int.not_lt.mp hpast)
      rw [hfinishDate] at hlater
      exact absurd hlater (Int.not_le.mpr (Int.lt_succ last))
    have hdates : first ≤ last := by
      rw [← hfinishDate]
      exact (midnight_le_iff hmidnights).mp (Int.le_trans hfirst hle)
    have hslots : ∀ d, calendar.slots d = [(x d, x (d + 1))] :=
      fun d => slots_of_ok (intervals_midnights hopen hmidnights d)
    have hend : first + ((last + 1 - first).toNat : Int) = last + 1 := by omega
    have hdays : 0 < (last + 1 - first).toNat := by omega
    obtain ⟨hsum, _⟩ := Timeline.sum_midnights (u := finish) (d := first) hstart
      (midnight_whole hmidnights) (midnight_mono hmidnights) hdays
    unfold businessSecondsBetween
    rw [if_neg (Int.not_le.mpr hlt), hstartDate, hfinishDate]
    refine betweenFrom_ok.mpr ⟨fun d _ => ⟨_, intervals_midnights hopen hmidnights d⟩, ?_⟩
    simp only [hslots]
    rw [hsum, hend, worked_cons, worked_nil, Int.add_zero, Slot.worked, max_eq_left hfirst,
      min_eq_left (Int.le_of_lt hlast), ticks_of_le hle]
  · rw [between_of_le (Int.le_refl _), Int.sub_self]
    rfl

/-- **Adding**, from an instant of the slot of a date: what the slot does not hold is added from
    the next midnight, and the instant that is reached stays the same. -/
theorem addFrom_midnights : ∀ {days : Nat} {date current k : Int}, second ∣ current → 0 < k →
    x date ≤ current → current ≤ x (date + 1) → current + k * second ≤ x (date + days) →
    addFrom calendar days date current k = .ok (current + k * second)
  | 0, date, current, k, _, hk, hfirst, _, hlimit => by
      exfalso
      rw [Nat.cast_zero, Int.add_zero] at hlimit
      unfold second at hlimit
      omega
  | days + 1, date, current, k, hcurrent, hk, hfirst, hlast, hlimit => by
      rw [addFrom, bind_eq_ok]
      refine ⟨_, intervals_midnights hopen hmidnights date, ?_⟩
      have hnext : calendar.dayStart (date + 1) = .ok (x (date + 1)) := (hmidnights (date + 1)).begins
      have hlater : x (date + 1) ≤ x (date + 1 + 1) := midnight_mono hmidnights (date + 1)
      have hdays : date + ((days + 1 : Nat) : Int) = date + 1 + (days : Int) := by omega
      rw [hdays] at hlimit
      rw [consume, max_eq_left hfirst]
      by_cases hfull : x (date + 1) ≤ current
      · have hsame : x (date + 1) = current := Int.le_antisymm hfull hlast
        rw [if_pos hfull, consume]
        dsimp only
        rw [hnext, hsame]
        exact addFrom_midnights hcurrent hk (Int.le_of_eq hsame) (hsame ▸ hlater) hlimit
      · rw [if_neg hfull]
        obtain ⟨m, hm⟩ := Int.dvd_sub (midnight_whole hmidnights (date + 1)) hcurrent
        have havailable : wholeSeconds (x (date + 1) - current) = m := by
          unfold wholeSeconds
          rw [hm]
          exact Int.mul_ediv_cancel_left m (by decide)
        dsimp only
        rw [havailable]
        by_cases hinside : k ≤ m
        · rw [if_pos hinside]
          rfl
        · rw [if_neg hinside, consume]
          dsimp only
          rw [hnext]
          have hreached : x (date + 1) + (k - m) * second = current + k * second := by
            unfold second at *
            omega
          rw [← hreached] at hlimit ⊢
          exact addFrom_midnights (midnight_whole hmidnights (date + 1)) (by omega) (Int.le_refl _)
            hlater hlimit

/-- **Dates without gap or overlap never close.** -/
theorem neverCloses_of_midnights : calendar.NeverCloses where
  counts start finish hstart _ hle := counts_of_midnights hopen hmidnights hstart hle
  adds start n hstart hn hsearch := by
    rcases Int.lt_or_eq_of_le hn with hpositive | rfl
    · have hlimit : start + n * second ≤ x (calendar.timezone.localDate start + maxSearchDays) := by
        by_contra hbeyond
        have hpast : x (calendar.timezone.localDate start + maxSearchDays) ≤
            start + n * second - 1 := Int.le_sub_one_of_lt (Int.not_le.mp hbeyond)
        have hdate := (midnight_le_iff hmidnights).mp hpast
        exact absurd (hsearch hpositive) (Int.not_lt.mpr hdate)
      have hnext : start ≤ x (calendar.timezone.localDate start + 1) := by
        by_contra hlater
        have hdate := (midnight_le_iff hmidnights).mp (Int.le_of_lt (Int.not_le.mp hlater))
        exact absurd hdate (Int.not_le.mpr (Int.lt_succ _))
      rw [addBusinessSeconds_pos hpositive]
      exact addFrom_midnights hopen hmidnights hstart hpositive
        ((midnight_le_iff hmidnights).mpr (Int.le_refl _)) hnext hlimit
    · rw [addBusinessSeconds_zero, Int.zero_mul, Int.add_zero]

end Midnights

/-! ## 4. What a midnight with two instants, or a late one, breaks -/

/-- The end of a slot: from there on the clock shows no less. -/
theorem le_shown_of_end (hapart : zone.Apart) {naive x y : Int}
    (h : localBoundary zone naive true = .ok x) (hxy : x ≤ y) : naive ≤ zone.astimezone y := by
  cases hapart.place naive with
  | @once z honce =>
      have hutc : ∀ fold, zone.toUtc fold naive = z := honce.found
      have hshown : ∀ fold, zone.astimezone (zone.toUtc fold naive) = naive :=
        fun fold => (hutc fold).symm ▸ honce.shows
      rw [shown_of_candidates (hshown false) (hshown true), hutc, hutc] at h
      have hsame : z = x := (max_self z).symm.trans (Except.ok.inj h)
      exact honce.after y (hsame ▸ hxy)
  | repeated hchange hlow hhigh hback =>
      obtain ⟨hfirst, hlast, hshows, _, hafter⟩ := repeated_shown hapart hchange hlow hhigh hback
      rw [shown_of_candidates (hshows false) (hshows true)] at h
      have hlater : zone.toUtc true naive ≤ x := by
        rw [← Except.ok.inj h]
        exact le_max_right _ _
      exact hafter y (Int.le_trans hlater hxy)
  | @skipped offset t hchange hlow hhigh hforward =>
      have hreached : t.utc * second ≤ x := by
        by_contra hbefore
        have hless : zone.astimezone x < naive := by
          refine ZoneInfo.shown_lt hapart.inOrder hapart.apart hchange hlow (Int.not_le.mp hbefore) ?_
          unfold Transition.low second at *
          omega
        exact absurd (localBoundary_shows h) (Int.not_le.mpr hless)
      refine Int.le_trans (Int.le_of_lt hhigh) (ZoneInfo.le_shown hapart.inOrder hapart.apart hchange
        (Int.le_trans hreached hxy) (Int.le_refl _) ?_)
      unfold Transition.high second at *
      omega

/-- A boundary shows its local time or one at most 180 minutes later. -/
theorem boundary_shows_le {naive x : Int} {isEnd : Bool} (h : localBoundary zone naive isEnd = .ok x) :
    zone.astimezone x ≤ naive + 180 * (60 * second) := by
  rcases localBoundary_cases h with hshows | ⟨_, hprobe⟩
  · rw [hshows]
    exact Int.le_add_of_nonneg_right (by decide)
  · obtain ⟨k, _, hk, _, hshows⟩ := probeBoundary_found hprobe
    rw [hshows]
    exact Int.add_le_add_left (Int.mul_le_mul_of_nonneg_right hk (by decide)) _

section Counted

variable (hopen : calendar.version.twentyFourSeven = true) (hnever : calendar.NeverCloses)

include hopen hnever

/-- What is counted over the dates of two instants, all of which are resolved. -/
theorem counted_sum {start finish : Int} (hstart : second ∣ start) (hfinish : second ∣ finish)
    (hlt : start < finish) :
    (∀ d : Int, calendar.timezone.localDate start ≤ d → d ≤ calendar.timezone.localDate finish →
        ∃ first last, calendar.dayStart d = .ok first ∧
          localBoundary calendar.timezone (combine (d + 1) midnight) true = .ok last ∧
          calendar.slots d = [(first, last)] ∧ second ∣ first) ∧
      ∑ d ∈ Ico (calendar.timezone.localDate start) (calendar.timezone.localDate finish + 1),
        worked second start finish (calendar.slots d) = (finish - start) / second := by
  have hcount := hnever.counts start finish hstart hfinish (Int.le_of_lt hlt)
  refine ⟨fun d hd hd' => ?_, (between_sum hlt hcount).symm⟩
  unfold businessSecondsBetween at hcount
  rw [if_neg (Int.not_le.mpr hlt)] at hcount
  obtain ⟨hall, _⟩ := betweenFrom_ok.mp hcount
  obtain ⟨is, his⟩ := hall d (by
    rw [Timeline.Ico_toNat, mem_Ico]
    exact ⟨hd, Int.lt_add_one_of_le hd'⟩)
  obtain ⟨first, last, hfirst, hlast, rfl⟩ := (intervals_open hopen).mp his
  exact ⟨first, last, hfirst, hlast, slots_of_ok his,
    localBoundary_whole hfirst (second_dvd_midnight d)⟩

/-- Of the dates of two instants, what is counted from an instant of the last one on. -/
theorem counted_rest {start middle finish : Int} (hstart : second ∣ start) (hmiddle : second ∣ middle)
    (hfinish : second ∣ finish) (hlt : start < middle) (hlt' : middle < finish)
    (hdate : calendar.timezone.localDate middle = calendar.timezone.localDate finish) :
    ∑ d ∈ Ico (calendar.timezone.localDate start) (calendar.timezone.localDate finish + 1),
      worked second middle finish (calendar.slots d) = (finish - middle) / second := by
  obtain ⟨hdates, hcount⟩ := counted_sum hopen hnever hstart hfinish (Int.lt_trans hlt hlt')
  obtain ⟨_, hbefore⟩ := counted_sum hopen hnever hstart hmiddle hlt
  rw [hdate] at hbefore
  have hadd : ∀ d ∈ Ico (calendar.timezone.localDate start) (calendar.timezone.localDate finish + 1),
      worked second start finish (calendar.slots d) =
        worked second start middle (calendar.slots d) +
          worked second middle finish (calendar.slots d) := by
    intro d hd
    obtain ⟨_, _, _, _, hslots, hwhole⟩ :=
      hdates d (mem_Ico.mp hd).1 (Int.le_of_lt_add_one (mem_Ico.mp hd).2)
    refine (worked_add (Int.le_of_lt hlt) (Int.le_of_lt hlt') hstart hmiddle ?_).symm
    rw [hslots]
    exact List.forall_mem_singleton.mpr hwhole
  have htotal : (finish - start) / second = (middle - start) / second + (finish - middle) / second := by
    rw [← Int.add_ediv_of_dvd_left (Int.dvd_sub hmiddle hstart)]
    congr 1
    omega
  rw [sum_congr rfl hadd, sum_add_distrib, hbefore, htotal] at hcount
  exact Int.add_left_cancel hcount

/-- **No midnight is repeated.** The seconds between its two instants would be counted with
    the date before it and with its own. -/
theorem not_repeated (hapart : calendar.timezone.Apart)
    (hchange : (offset, t) ∈ calendar.timezone.changes) {date : Int}
    (hlow : Transition.low offset t * second ≤ date * day)
    (hhigh : date * day < Transition.high offset t * second) : ¬ t.offset < offset := by
  intro hback
  obtain ⟨hfirstBefore, hlastAfter, hshows, hless, hmore⟩ :=
    repeated_shown hapart hchange hlow hhigh hback
  obtain ⟨first, hfirst⟩ : ∃ x : Int, calendar.timezone.toUtc false (date * day) = x := ⟨_, rfl⟩
  obtain ⟨last, hlast⟩ : ∃ x : Int, calendar.timezone.toUtc true (date * day) = x := ⟨_, rfl⟩
  have hshown : ∀ isEnd, localBoundary calendar.timezone (combine date midnight) isEnd =
      .ok ((if isEnd then max else min) first last) := by
    intro isEnd
    rw [combine_midnight, shown_of_candidates (hshows false) (hshows true), hfirst, hlast]
  rw [hfirst] at hfirstBefore hless
  rw [hlast] at hlastAfter hmore
  have hlt : first < last := Int.lt_of_lt_of_le hfirstBefore hlastAfter
  have hbegins : calendar.dayStart date = .ok first :=
    (hshown false).trans (congrArg Except.ok (min_eq_left (Int.le_of_lt hlt)))
  have hends : localBoundary calendar.timezone (combine date midnight) true = .ok last :=
    (hshown true).trans (congrArg Except.ok (max_eq_right (Int.le_of_lt hlt)))
  have hfirstWhole : second ∣ first := localBoundary_whole hbegins (second_dvd_midnight date)
  have hlastWhole : second ∣ last := localBoundary_whole hends (second_dvd_midnight date)
  have hfirstDate : calendar.timezone.localDate first = date := by
    rw [ZoneInfo.localDate, ← hfirst, hshows, ← combine_midnight, dateOf_combine]
  have hlastDate : calendar.timezone.localDate last = date := by
    rw [ZoneInfo.localDate, ← hlast, hshows, ← combine_midnight, dateOf_combine]
  -- a second earlier it is another date
  have hstartWhole : second ∣ first - second := Int.dvd_sub hfirstWhole (Int.dvd_refl _)
  have hstart : first - second < first := Int.sub_lt_self _ second_pos
  obtain ⟨from_, hfrom⟩ : ∃ d : Int, calendar.timezone.localDate (first - second) = d := ⟨_, rfl⟩
  have hfromDate : from_ < date := by
    rw [← hfrom]
    exact localDate_lt_iff.mpr (hless _ hstart)
  obtain ⟨hdates, _⟩ := counted_sum hopen hnever hstartWhole hlastWhole (Int.lt_trans hstart hlt)
  have hcount := counted_rest hopen hnever hstartWhole hfirstWhole hlastWhole hstart hlt
    (hfirstDate.trans hlastDate.symm)
  rw [hfrom, hlastDate] at hdates hcount
  -- between the two instants both dates have their hours
  have hown : worked second first last (calendar.slots date) = (last - first) / second := by
    obtain ⟨_, finish, hbegins', hfinish, hslots, _⟩ :=
      hdates date (Int.le_of_lt hfromDate) (Int.le_refl _)
    obtain rfl := Except.ok.inj (hbegins.symm.trans hbegins')
    have hover : last ≤ finish := by
      by_contra hbefore
      have hafter := le_shown_of_end hapart hfinish (Int.le_of_lt (Int.not_le.mp hbefore))
      rw [combine_midnight] at hafter
      have hdate := le_localDate_iff.mpr hafter
      rw [hlastDate] at hdate
      exact absurd hdate (Int.not_le.mpr (Int.lt_succ date))
    rw [hslots, worked_cons, worked_nil, Int.add_zero, Slot.worked, max_self, min_eq_left hover,
      ticks_of_le (Int.le_of_lt hlt)]
  have hearlier : 0 < worked second first last (calendar.slots (date - 1)) := by
    obtain ⟨start, finish, hstart', hfinish, hslots, hwhole⟩ :=
      hdates (date - 1) (Int.le_sub_one_of_lt hfromDate) (Int.sub_le_self _ (by decide))
    rw [Int.sub_add_cancel, hends] at hfinish
    obtain rfl := Except.ok.inj hfinish
    have hopenSlot : start < last := by
      by_contra hlate
      have hafter := hmore start (Int.not_lt.mp hlate)
      have hlimit := boundary_shows_le hstart'
      rw [combine_midnight] at hlimit
      have hspan : (date - 1) * day + 180 * (60 * second) < date * day := by
        unfold day second
        omega
      exact absurd (Int.le_trans hafter hlimit) (Int.not_le.mpr hspan)
    have hbegin : second ∣ max first start ∧ max first start < last := by
      rcases max_choice first start with hmax | hmax <;> rw [hmax]
      exacts [⟨hfirstWhole, hlt⟩, ⟨hwhole, hopenSlot⟩]
    rw [hslots, worked_cons, worked_nil, Int.add_zero, Slot.worked, min_self]
    refine Int.lt_of_lt_of_le Int.one_pos ((le_ticks_iff second_pos Int.one_pos).mpr ?_)
    have hle := Int.le_of_dvd (Int.sub_pos_of_lt hbegin.2) (Int.dvd_sub hlastWhole hbegin.1)
    omega
  have hpair : worked second first last (calendar.slots (date - 1)) +
      worked second first last (calendar.slots date) ≤
        ∑ d ∈ Ico from_ (date + 1), worked second first last (calendar.slots d) := by
    have htwo : date - 1 ≠ date := by omega
    have hsum := sum_pair (f := fun d => worked second first last (calendar.slots d)) htwo
    refine Int.le_trans (Int.le_of_eq hsum.symm) ?_
    refine sum_le_sum_of_subset_of_nonneg (fun d hd => ?_) fun _ _ _ => worked_nonneg second_pos
    rw [mem_Ico]
    rcases mem_insert.mp hd with rfl | hd
    · exact ⟨Int.le_sub_one_of_lt hfromDate, Int.lt_add_one_of_le (Int.sub_le_self _ (by decide))⟩
    · rw [mem_singleton.mp hd]
      exact ⟨Int.le_of_lt hfromDate, Int.lt_succ date⟩
  rw [hown, hcount] at hpair
  exact absurd hpair (Int.not_le.mpr (Int.lt_add_of_pos_left _ hearlier))

/-- **A midnight that is skipped** is found at most 180 minutes later, at the change itself: the
    second after the change belongs to no other date. -/
theorem skipped_soon (hapart : calendar.timezone.Apart)
    (hchange : (offset, t) ∈ calendar.timezone.changes) {date : Int}
    (hlow : Transition.low offset t * second ≤ date * day)
    (hhigh : date * day < Transition.high offset t * second) (hforward : offset < t.offset) :
    60 ∣ Transition.high offset t ∧
      Transition.high offset t * second ≤ date * day + 180 * (60 * second) := by
  obtain ⟨u, hu⟩ : ∃ u : Int, t.utc * second = u := ⟨_, rfl⟩
  obtain ⟨high, hhighEq⟩ : ∃ n : Int, Transition.high offset t * second = n := ⟨_, rfl⟩
  obtain ⟨_, hshowsU⟩ := forward_found hapart hchange hforward
  have hwholeU : second ∣ u := hu ▸ Int.dvd_mul_left _ _
  have hless : ∀ y, y < u → calendar.timezone.astimezone y < date * day := by
    intro y hy
    rw [← hu] at hy
    refine ZoneInfo.shown_lt hapart.inOrder hapart.apart hchange hlow hy ?_
    unfold Transition.low second at *
    omega
  have hmore : ∀ y, u ≤ y → high ≤ calendar.timezone.astimezone y := by
    intro y hy
    rw [← hu] at hy
    rw [← hhighEq]
    refine ZoneInfo.le_shown hapart.inOrder hapart.apart hchange hy (Int.le_refl _) ?_
    unfold Transition.high second at *
    omega
  have hskipped := skipped_not_shown hapart hchange (Int.le_trans hlow (Int.le_refl _)) hhigh hforward
  rw [hhighEq] at hhigh hshowsU ⊢
  rw [hu] at hshowsU
  have hnext : u < u + second := Int.lt_add_of_pos_right _ second_pos
  have hnextWhole : second ∣ u + second := Int.dvd_add hwholeU (Int.dvd_refl _)
  have hafterDate : date ≤ calendar.timezone.localDate (u + second) :=
    le_localDate_iff.mpr (Int.le_trans (Int.le_of_lt hhigh) (hmore _ (Int.le_of_lt hnext)))
  -- the date is searched
  obtain ⟨hdates, _⟩ := counted_sum hopen hnever (Int.dvd_sub hwholeU (Int.dvd_refl _)) hnextWhole
    (Int.lt_trans (Int.sub_lt_self u second_pos) hnext)
  obtain ⟨first, _, hbegins, _⟩ := hdates date
    (Int.le_of_lt (localDate_lt_iff.mpr (hless _ (Int.sub_lt_self u second_pos)))) hafterDate
  have hprobe : probeBoundary calendar.timezone 180 (date * day) = .ok first := by
    rw [← probed_of_candidates hskipped false, ← combine_midnight]
    exact hbegins
  obtain ⟨k, _, hk, hfound, hshows⟩ := probeBoundary_found hprobe
  have hreached : high ≤ date * day + k * (60 * second) := by
    by_contra hinside
    rw [← hhighEq, Int.not_le] at hinside
    have hlater : Transition.low offset t * second ≤ date * day + k * (60 * second) := by
      unfold second at *
      omega
    refine skipped_not_shown hapart hchange hlater hinside hforward false ?_
    rw [hfound, hshows]
  have hlimit : high ≤ date * day + 180 * (60 * second) := by
    have hle : k * (60 * second) ≤ 180 * (60 * second) :=
      Int.mul_le_mul_of_nonneg_right hk (by decide)
    omega
  refine ⟨?_, hlimit⟩
  by_contra hminute
  have hprobed : high < date * day + k * (60 * second) := by
    rcases Int.lt_or_eq_of_le hreached with hlt | heq
    · exact hlt
    · exfalso
      rw [← hhighEq] at heq
      unfold day second at heq
      omega
  -- no date has the second after the change
  have hnone : ∀ d ∈ Ico (calendar.timezone.localDate u) (calendar.timezone.localDate (u + second) + 1),
      worked second u (u + second) (calendar.slots d) = 0 := by
    intro d hd
    obtain ⟨hdates, _⟩ := counted_sum hopen hnever hwholeU hnextWhole hnext
    obtain ⟨start, finish, hstart, _, hslots, hwhole⟩ :=
      hdates d (mem_Ico.mp hd).1 (Int.le_of_lt_add_one (mem_Ico.mp hd).2)
    have hdate : date ≤ d := by
      refine Int.le_trans (le_localDate_iff.mpr ?_) (mem_Ico.mp hd).1
      rw [hshowsU]
      exact Int.le_of_lt hhigh
    have hshown : high < calendar.timezone.astimezone start := by
      rcases Int.lt_or_eq_of_le hdate with hlater | rfl
      · have hlate := localBoundary_shows hstart
        rw [combine_midnight] at hlate
        refine Int.lt_of_le_of_lt hlimit (Int.lt_of_lt_of_le ?_ hlate)
        unfold day second
        omega
      · obtain rfl := Except.ok.inj (hbegins.symm.trans hstart)
        rw [hshows]
        exact hprobed
    have hafter : u < start := by
      by_contra hearly
      rcases Int.lt_or_eq_of_le (Int.not_lt.mp hearly) with hlt | rfl
      · exact absurd (Int.lt_trans hhigh (Int.lt_trans hshown (hless _ hlt))) (Int.lt_irrefl _)
      · exact absurd hshown (hshowsU ▸ Int.lt_irrefl _)
    have hnextLe : u + second ≤ start := by
      have hle := Int.le_of_dvd (Int.sub_pos_of_lt hafter) (Int.dvd_sub hwhole hwholeU)
      omega
    rw [hslots]
    exact worked_future (List.forall_mem_singleton.mpr hnextLe)
  obtain ⟨_, hcount⟩ := counted_sum hopen hnever hwholeU hnextWhole hnext
  have hlength : u + second - u = second := by omega
  rw [sum_eq_zero hnone, hlength, Int.ediv_self (by decide)] at hcount
  exact absurd hcount (by decide)

end Counted

/-- **Round the clock**: in every zone a calendar that never closes counts and adds seconds as they
    pass exactly if the changes of the zone keep the midnights. -/
theorem neverCloses_iff {zones : String → Option ZoneInfo} {version : BusinessCalendarVersion}
    (hconstruct : construct zones version = .ok calendar) (hhours : version.twentyFourSeven = true)
    (hapart : calendar.timezone.Apart) :
    calendar.NeverCloses ↔ KeepsMidnights calendar.timezone := by
  have hopen : calendar.version.twentyFourSeven = true := by
    rw [(construct_ok hconstruct).1]
    exact hhours
  constructor
  · intro hnever offset t hchange date hlow hhigh
    have hforward : offset < t.offset := by
      rcases Int.lt_trichotomy t.offset offset with hback | hsame | hforward
      · exact absurd hback (not_repeated hopen hnever hapart hchange hlow hhigh)
      · have hempty : Transition.low offset t = Transition.high offset t := by
          unfold Transition.low Transition.high
          omega
        exact absurd hhigh (Int.not_lt.mpr (hempty ▸ hlow))
      · exact hforward
    exact ⟨hforward, skipped_soon hopen hnever hapart hchange hlow hhigh hforward⟩
  · intro hkeeps
    choose x hmidnights using midnight_of_keeps hapart hkeeps
    exact neverCloses_of_midnights hopen hmidnights

def roundTheClock : BusinessCalendarVersion where
  businessCalendarVersionId := 1
  calendarId := 2
  timezoneName := "Asia/Beirut"
  twentyFourSeven := true
  workingPeriods := []
  exceptions := []

/-- The clock goes from midnight on 2024-03-31 to 01:00. -/
def skipsMidnight : ZoneInfo := ⟨7200, [⟨1711836000, 10800⟩]⟩

theorem skipsMidnight_apart : skipsMidnight.Apart where
  inOrder := List.pairwise_singleton _ _
  apart := ⟨(fun _ ht => nomatch ht), trivial⟩

theorem neverCloses_iff_skips :
    ∃ calendar, construct (fun _ => some skipsMidnight) roundTheClock = .ok calendar ∧
      calendar.NeverCloses := by
  obtain ⟨calendar, hconstruct⟩ :
      ∃ calendar, construct (fun _ => some skipsMidnight) roundTheClock = .ok calendar := ⟨_, rfl⟩
  have hzone : calendar.timezone = skipsMidnight :=
    (Option.some.inj (construct_ok hconstruct).2.1).symm
  refine ⟨calendar, hconstruct,
    (neverCloses_iff hconstruct rfl (hzone ▸ skipsMidnight_apart)).mpr ?_⟩
  rw [hzone]
  intro offset t hchange date hlow _
  obtain ⟨rfl, rfl⟩ := Prod.mk.inj (List.mem_singleton.mp hchange)
  refine ⟨by decide, by decide, ?_⟩
  refine Int.le_trans ?_ (Int.add_le_add_right hlow _)
  decide

/-- The clock goes from 01:00 on 2024-11-03 back to midnight. -/
def repeatsMidnight : ZoneInfo := ⟨-14400, [⟨1730610000, -18000⟩]⟩

/-- Three hours around it count as four. -/
theorem repeated_midnight_counts_twice :
    ∃ calendar, construct (fun _ => some repeatsMidnight) roundTheClock = .ok calendar ∧
      calendar.timezone.Apart ∧
      calendar.businessSecondsBetween (1730602800 * second) (1730613600 * second) = .ok 14400 ∧
      ¬ calendar.NeverCloses := by
  have hapart : repeatsMidnight.Apart := ⟨List.pairwise_singleton _ _, (fun _ ht => nomatch ht), trivial⟩
  refine ⟨_, rfl, hapart, rfl, fun hnever => ?_⟩
  have hcount := hnever.counts (1730602800 * second) (1730613600 * second) (Int.dvd_mul_left _ _)
    (Int.dvd_mul_left _ _) (by decide)
  exact absurd (Except.ok.inj hcount) (by decide)

end BusinessCalendar

end Helpdesk.Sla
