/-
  File:      Helpdesk/Python/ClockChanges.lean
  Subject:   What an offset change does to the local clock.

  Every zone file keeps its changes apart (`Apart`): none begins, on the local clock, before
  the one before it has ended. A local time is then shown once (`Once`), or one change skips
  or repeats it (`Within`); the clock shows less before and no less afterwards.
-/
import Helpdesk.Python.LocalTimes

namespace Helpdesk.Python.ZoneInfo

/-! ## 1. The changes of a zone -/

/-- The changes, each after the offset that it ends. -/
def changesFrom : Int → List Transition → List (Int × Transition)
  | _, [] => []
  | offset, t :: rest => (offset, t) :: changesFrom t.offset rest

section Changes

variable {fold : Bool} {offset o naive x : Int} {t u : Transition}
  {rest transitions : List Transition}

theorem mem_of_change (h : (o, u) ∈ changesFrom offset transitions) : u ∈ transitions := by
  induction transitions generalizing offset with
  | nil => exact absurd h List.not_mem_nil
  | cons t rest ih =>
      rcases List.mem_cons.mp h with heq | hlater
      · rw [(Prod.mk.inj heq).2]
        exact List.mem_cons_self
      · exact List.mem_cons_of_mem _ (ih hlater)

/-- A later change begins after every change before it has ended. -/
theorem high_lt_low (hapart : apartFrom offset (t :: rest)) (h : (o, u) ∈ changesFrom t.offset rest) :
    Transition.high offset t < Transition.low o u := by
  induction rest generalizing offset t with
  | nil => exact absurd h List.not_mem_nil
  | cons t' rest ih =>
      obtain ⟨hnext, hrest⟩ := hapart
      have hfirst := hnext t' rfl
      rcases List.mem_cons.mp h with heq | hlater
      · obtain ⟨rfl, rfl⟩ := Prod.mk.inj heq
        exact hfirst
      · have hle : Transition.low t.offset t' ≤ Transition.high t.offset t' := low_le_high
        exact Int.lt_trans (Int.lt_of_lt_of_le hfirst hle) (ih hrest hlater)

theorem clockFrom_past (h : t.utc * second ≤ x) :
    clockFrom offset (t :: rest) x = clockFrom t.offset rest x := by
  rw [clockFrom, offsetFrom_past h]
  rfl

theorem clockFrom_before (horder : (t :: rest).Pairwise fun t t' => t.utc < t'.utc)
    (h : x < t.utc * second) : clockFrom offset (t :: rest) x = x + offset * second := by
  rw [clockFrom, offsetFrom_before (List.pairwise_cons.mp horder).1 h]

/-- Before a change the clock has not reached its end. -/
theorem shown_lt_high (horder : (t :: rest).Pairwise fun t t' => t.utc < t'.utc)
    (h : x < t.utc * second) :
    clockFrom offset (t :: rest) x < Transition.high offset t * second := by
  rw [clockFrom_before horder h]
  unfold Transition.high second at *
  omega

section Change

variable (horder : transitions.Pairwise fun t t' => t.utc < t'.utc)
  (hapart : apartFrom offset transitions) (hchange : (o, u) ∈ changesFrom offset transitions)

include horder hapart hchange

/-- Until a change the clock shows less than a local time that the change skips or repeats, as
    long as the offset before the change would. -/
theorem shown_lt (hlow : Transition.low o u * second ≤ naive) (hx : x < u.utc * second)
    (hless : x + o * second < naive) : clockFrom offset transitions x < naive := by
  induction transitions generalizing offset with
  | nil => exact absurd hchange List.not_mem_nil
  | cons t rest ih =>
      rcases List.mem_cons.mp hchange with heq | hlater
      · obtain ⟨rfl, rfl⟩ := Prod.mk.inj heq
        rw [clockFrom_before horder hx]
        exact hless
      · rcases Int.lt_or_le x (t.utc * second) with hbefore | hpast
        · have hearly : clockFrom offset (t :: rest) x < Transition.high offset t * second :=
            shown_lt_high horder hbefore
          have hgap := high_lt_low hapart hlater
          unfold second at *
          omega
        · rw [clockFrom_past hpast]
          exact ih (List.pairwise_cons.mp horder).2 hapart.2 hlater

/-- Right before a change its old offset is in force. -/
theorem shown_before (hx : x < u.utc * second)
    (hlow : Transition.low o u * second ≤ x + o * second) :
    clockFrom offset transitions x = x + o * second := by
  induction transitions generalizing offset with
  | nil => exact absurd hchange List.not_mem_nil
  | cons t rest ih =>
      rcases List.mem_cons.mp hchange with heq | hlater
      · obtain ⟨rfl, rfl⟩ := Prod.mk.inj heq
        exact clockFrom_before horder hx
      · have ⟨hfollow, horder'⟩ := List.pairwise_cons.mp horder
        have hrun := ih horder' hapart.2 hlater
        have hpast : t.utc * second ≤ x := by
          by_contra hbefore
          have hnone := lt_later hfollow (Int.le_of_lt (Int.not_le.mp hbefore))
          rw [clockFrom, offsetFrom_future hnone] at hrun
          have hgap := high_lt_low hapart hlater
          unfold Transition.high second at *
          omega
        rw [clockFrom_past hpast]
        exact hrun

/-- Right after a change its new offset is in force. -/
theorem shown_after (hx : u.utc * second ≤ x)
    (hhigh : x + u.offset * second ≤ Transition.high o u * second) :
    clockFrom offset transitions x = x + u.offset * second := by
  induction transitions generalizing offset with
  | nil => exact absurd hchange List.not_mem_nil
  | cons t rest ih =>
      have ⟨hfollow, horder'⟩ := List.pairwise_cons.mp horder
      rcases List.mem_cons.mp hchange with heq | hlater
      · obtain ⟨rfl, rfl⟩ := Prod.mk.inj heq
        have hnext : ∀ t' ∈ rest.head?,
            x + u.offset * second < Transition.low u.offset t' * second := by
          intro t' ht'
          have hgap := hapart.1 t' ht'
          unfold second at *
          omega
        rw [clockFrom_past hx]
        refine (before_change horder' hapart.2 hnext).2 x (Int.le_of_eq ?_)
        exact (Int.add_sub_cancel _ _).symm
      · have hutc := hfollow u (mem_of_change hlater)
        rw [clockFrom_past (by
          unfold second at *
          omega)]
        exact ih horder' hapart.2 hlater

/-- From a change on the clock shows no less than what lies before the change's end. -/
theorem le_shown {bound : Int} (hx : u.utc * second ≤ x)
    (hhigh : bound ≤ Transition.high o u * second) (hbound : bound ≤ x + u.offset * second) :
    bound ≤ clockFrom offset transitions x := by
  induction transitions generalizing offset with
  | nil => exact absurd hchange List.not_mem_nil
  | cons t rest ih =>
      have ⟨hfollow, horder'⟩ := List.pairwise_cons.mp horder
      rcases List.mem_cons.mp hchange with heq | hlater
      · obtain ⟨rfl, rfl⟩ := Prod.mk.inj heq
        rw [clockFrom_past hx]
        refine le_clockFrom horder' hapart.2 hbound fun t' ht' => ?_
        have hgap := hapart.1 t' ht'
        unfold second at *
        omega
      · have hutc := hfollow u (mem_of_change hlater)
        rw [clockFrom_past (by
          unfold second at *
          omega)]
        exact ih horder' hapart.2 hlater

/-- The instants that are found for a local time that a change skips or repeats. -/
theorem found_within (hlow : Transition.low o u * second ≤ naive)
    (hhigh : naive < Transition.high o u * second) :
    toUtcFrom false offset transitions naive = naive - o * second ∧
      toUtcFrom true offset transitions naive = naive - u.offset * second := by
  induction transitions generalizing offset with
  | nil => exact absurd hchange List.not_mem_nil
  | cons t rest ih =>
      have ⟨_, horder'⟩ := List.pairwise_cons.mp horder
      rcases List.mem_cons.mp hchange with heq | hlater
      · obtain ⟨rfl, rfl⟩ := Prod.mk.inj heq
        have hnext : ∀ t' ∈ rest.head?, naive < Transition.low u.offset t' * second := by
          intro t' ht'
          have hgap := hapart.1 t' ht'
          unfold second at *
          omega
        constructor
        · rw [toUtcFrom, wallFrom_future hapart fun t' ht' => ?_]
          obtain rfl := Option.some.inj ht'
          exact hhigh
        · rw [toUtcFrom_past hlow]
          exact (before_change horder' hapart.2 hnext).1 true
      · have hpast : ∀ fold, wallTime fold offset t ≤ naive := by
          intro fold
          have hgap := high_lt_low hapart hlater
          refine Int.le_trans wallTime_le ?_
          unfold second at *
          omega
        rw [toUtcFrom_past (hpast false), toUtcFrom_past (hpast true)]
        exact ih horder' hapart.2 hlater

/-- The instant that is found for the end of a change. -/
theorem found_end : toUtcFrom false offset transitions (Transition.high o u * second) =
    Transition.high o u * second - u.offset * second := by
  induction transitions generalizing offset with
  | nil => exact absurd hchange List.not_mem_nil
  | cons t rest ih =>
      have ⟨_, horder'⟩ := List.pairwise_cons.mp horder
      rcases List.mem_cons.mp hchange with heq | hlater
      · obtain ⟨rfl, rfl⟩ := Prod.mk.inj heq
        rw [toUtcFrom_past (Int.le_of_eq wallTime_false)]
        refine (before_change horder' hapart.2 fun t' ht' => ?_).1 false
        exact Int.mul_lt_mul_of_pos_right (hapart.1 t' ht') (by decide)
      · rw [toUtcFrom_past]
        · exact ih horder' hapart.2 hlater
        · have hgap := high_lt_low hapart hlater
          have hle : Transition.low o u ≤ Transition.high o u := low_le_high
          rw [wallTime_false]
          exact Int.mul_le_mul_of_nonneg_right (Int.le_of_lt (Int.lt_of_lt_of_le hgap hle)) (by decide)

end Change

/-! ## 2. Local times that are shown once -/

/-- A local time that one instant shows: the clock shows less before it and no less after it. -/
structure OnceAt (offset : Int) (transitions : List Transition) (naive x : Int) : Prop where
  found : ∀ fold, toUtcFrom fold offset transitions naive = x
  shows : clockFrom offset transitions x = naive
  before : ∀ y, y < x → clockFrom offset transitions y < naive
  after : ∀ y, x ≤ y → naive ≤ clockFrom offset transitions y

theorem onceAt_before (horder : transitions.Pairwise fun t t' => t.utc < t'.utc)
    (hapart : apartFrom offset transitions)
    (h : ∀ t ∈ transitions.head?, naive < Transition.low offset t * second) :
    OnceAt offset transitions naive (naive - offset * second) := by
  obtain ⟨hutc, hclock⟩ := before_change horder hapart h
  refine ⟨hutc, ?_, fun y hy => ?_, fun y hy => ?_⟩
  · rw [hclock _ (Int.le_refl _)]
    exact Int.sub_add_cancel _ _
  · rw [hclock y (Int.le_of_lt hy)]
    omega
  · exact le_clockFrom horder hapart (by omega) fun t ht => Int.le_of_lt (h t ht)

/-- **A local time that no change skips or repeats is shown once**, the induction being on the
    changes that are left. -/
theorem onceAt_outside (horder : transitions.Pairwise fun t t' => t.utc < t'.utc)
    (hapart : apartFrom offset transitions)
    (hout : ∀ o u, (o, u) ∈ changesFrom offset transitions →
      Transition.low o u * second ≤ naive → Transition.high o u * second ≤ naive) :
    ∃ x, OnceAt offset transitions naive x := by
  induction transitions generalizing offset with
  | nil => exact ⟨_, onceAt_before horder hapart fun _ ht => nomatch ht⟩
  | cons t rest ih =>
      rcases Int.lt_or_le naive (Transition.low offset t * second) with hbefore | hlow
      · refine ⟨_, onceAt_before horder hapart fun t' ht' => ?_⟩
        obtain rfl := Option.some.inj ht'
        exact hbefore
      · have ⟨hfollow, horder'⟩ := List.pairwise_cons.mp horder
        have hhigh := hout offset t List.mem_cons_self hlow
        obtain ⟨x, hfound, hshows, hless, hmore⟩ := ih horder' hapart.2
          fun o u hchange => hout o u (List.mem_cons_of_mem _ hchange)
        have hpast : t.utc * second ≤ x := by
          by_contra hbefore
          have hnone := lt_later hfollow (Int.le_of_lt (Int.not_le.mp hbefore))
          rw [clockFrom, offsetFrom_future hnone] at hshows
          unfold Transition.high second at *
          omega
        refine ⟨x, fun fold => ?_, ?_, fun y hy => ?_, fun y hy => ?_⟩
        · rw [toUtcFrom_past (Int.le_trans wallTime_le hhigh)]
          exact hfound fold
        · rw [clockFrom_past hpast]
          exact hshows
        · rcases Int.lt_or_le y (t.utc * second) with hbefore | hreached
          · exact Int.lt_of_lt_of_le (shown_lt_high horder hbefore) hhigh
          · rw [clockFrom_past hreached]
            exact hless y hy
        · rw [clockFrom_past (Int.le_trans hpast hy)]
          exact hmore y hy

end Changes

/-! ## 3. Zones -/

/-- The changes of a zone, each after the offset that it ends. -/
def changes (zone : ZoneInfo) : List (Int × Transition) := changesFrom zone.before zone.transitions

/-- Changes in order that neither overlap nor touch on the local clock, as in every zone file;
    the search of a local time by bisection needs no less. -/
structure Apart (zone : ZoneInfo) : Prop where
  inOrder : zone.transitions.Pairwise fun t t' => t.utc < t'.utc
  apart : apartFrom zone.before zone.transitions

/-- Where a local time lies: one instant shows it, or a change repeats or skips it. -/
inductive Place (zone : ZoneInfo) (naive : Int) : Prop where
  | once {x : Int} (honce : OnceAt zone.before zone.transitions naive x)
  | repeated {offset : Int} {t : Transition} (hchange : (offset, t) ∈ zone.changes)
      (hlow : Transition.low offset t * second ≤ naive)
      (hhigh : naive < Transition.high offset t * second) (hback : t.offset < offset)
  | skipped {offset : Int} {t : Transition} (hchange : (offset, t) ∈ zone.changes)
      (hlow : Transition.low offset t * second ≤ naive)
      (hhigh : naive < Transition.high offset t * second) (hforward : offset < t.offset)

theorem Apart.place {zone : ZoneInfo} (hapart : zone.Apart) (naive : Int) : Place zone naive := by
  by_cases hsome : ∃ offset t, (offset, t) ∈ zone.changes ∧
      Transition.low offset t * second ≤ naive ∧ naive < Transition.high offset t * second
  · obtain ⟨offset, t, hchange, hlow, hhigh⟩ := hsome
    rcases Int.lt_trichotomy t.offset offset with hback | hsame | hforward
    · exact .repeated hchange hlow hhigh hback
    · have hempty : Transition.low offset t = Transition.high offset t := by
        unfold Transition.low Transition.high
        omega
      exact absurd hhigh (Int.not_lt.mpr (hempty ▸ hlow))
    · exact .skipped hchange hlow hhigh hforward
  · obtain ⟨x, honce⟩ := onceAt_outside hapart.inOrder hapart.apart fun o u hchange hlow => by
      by_contra hhigh
      exact hsome ⟨o, u, hchange, hlow, Int.not_le.mp hhigh⟩
    exact .once honce

end Helpdesk.Python.ZoneInfo
