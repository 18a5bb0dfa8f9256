/-
  File:      Helpdesk/Python/LocalTimes.lean
  Subject:   Local times and the instants that show them.

  * `localDate_mono`: where the clock repeats no midnight, local dates are in order;
  * `resolve`: where offset changes keep apart, each local time is shown by the instants that
    `zoneinfo` finds for it, or it lies in a gap and none of the two shows it.
-/
import Helpdesk.Python.Datetime

namespace Helpdesk.Python.ZoneInfo

/-! ## 1. Local dates in order -/

/-- The offset in force at an instant, after some of the changes. -/
def offsetFrom (offset : Int) (transitions : List Transition) (at_ : Instant) : Int :=
  transitions.foldl (fun offset t => if t.utc * second ≤ at_ then t.offset else offset) offset

/-- Each change that sets the clock back repeats local times of one date only. -/
def foldsWithinDates : Int → List Transition → Prop
  | _, [] => True
  | offset, t :: rest =>
      (t.offset < offset → dateOf ((t.utc + t.offset) * second) =
        dateOf ((t.utc + offset) * second - 1)) ∧ foldsWithinDates t.offset rest

/-- Changes in order, each of which repeats local times of one date at most. -/
structure FoldsWithinDates (zone : ZoneInfo) : Prop where
  inOrder : zone.transitions.Pairwise fun t t' => t.utc < t'.utc
  folds : foldsWithinDates zone.before zone.transitions

theorem offsetFrom_future {offset : Int} {transitions : List Transition} {x : Instant}
    (h : ∀ t ∈ transitions, x < t.utc * second) : offsetFrom offset transitions x = offset := by
  induction transitions with
  | nil => rfl
  | cons t rest ih =>
      obtain ⟨hhere, hrest⟩ := List.forall_mem_cons.mp h
      rw [offsetFrom, List.foldl_cons, if_neg (Int.not_le.mpr hhere)]
      exact ih hrest

theorem offsetFrom_past {offset : Int} {t : Transition} {rest : List Transition} {x : Instant}
    (h : t.utc * second ≤ x) : offsetFrom offset (t :: rest) x = offsetFrom t.offset rest x := by
  rw [offsetFrom, List.foldl_cons, if_pos h]
  rfl

/-- An instant that is no later than a change lies before the changes after it. -/
theorem lt_later {t : Transition} {rest : List Transition} (h : ∀ t' ∈ rest, t.utc < t'.utc)
    {x : Int} (hx : x ≤ t.utc * second) : ∀ t' ∈ rest, x < t'.utc * second := by
  intro t' ht'
  have hutc := h t' ht'
  unfold second at hx ⊢
  omega

theorem offsetFrom_before {offset : Int} {t : Transition} {rest : List Transition}
    (h : ∀ t' ∈ rest, t.utc < t'.utc) {x : Int} (hx : x < t.utc * second) :
    offsetFrom offset (t :: rest) x = offset :=
  offsetFrom_future (List.forall_mem_cons.mpr ⟨hx, lt_later h (Int.le_of_lt hx)⟩)

theorem dateOf_mono {x y : Int} (h : x ≤ y) : dateOf x ≤ dateOf y := by
  have hday : 0 < day := by decide
  exact Int.ediv_le_ediv hday h

/-- **Local dates are in order**; the induction is on the changes that are left. -/
theorem dateOf_offsetFrom_mono {offset : Int} {transitions : List Transition}
    (horder : transitions.Pairwise fun t t' => t.utc < t'.utc)
    (hfolds : foldsWithinDates offset transitions) {x y : Int} (hxy : x ≤ y) :
    dateOf (x + offsetFrom offset transitions x * second) ≤
      dateOf (y + offsetFrom offset transitions y * second) := by
  induction transitions generalizing offset x y with
  | nil =>
      refine dateOf_mono ?_
      show x + offset * second ≤ y + offset * second
      exact Int.add_le_add_right hxy _
  | cons t rest ih =>
      obtain ⟨hlater, hrest⟩ := List.pairwise_cons.mp horder
      obtain ⟨hfold, hfolds⟩ := hfolds
      rcases Int.lt_or_le y (t.utc * second) with hy | hy
      · rw [offsetFrom_before hlater (Int.lt_of_le_of_lt hxy hy), offsetFrom_before hlater hy]
        exact dateOf_mono (Int.add_le_add_right hxy _)
      · rw [offsetFrom_past hy]
        rcases Int.lt_or_le x (t.utc * second) with hx | hx
        · -- across the change: the date before it is at most the date it leads to
          have hstep : dateOf (x + offset * second) ≤
              dateOf (t.utc * second + t.offset * second) := by
            rcases Int.lt_or_le t.offset offset with hback | hforward
            · rw [← Int.add_mul, hfold hback]
              refine dateOf_mono ?_
              unfold second at hx ⊢
              omega
            · refine dateOf_mono ?_
              unfold second at hx ⊢
              omega
          rw [offsetFrom_before hlater hx]
          refine Int.le_trans hstep ?_
          have hrun := ih hrest hfolds hy
          rwa [offsetFrom_future (lt_later hlater (Int.le_refl _))] at hrun
        · rw [offsetFrom_past hx]
          exact ih hrest hfolds hxy

theorem FoldsWithinDates.localDate_mono {zone : ZoneInfo} (h : zone.FoldsWithinDates)
    {x y : Int} (hxy : x ≤ y) : zone.localDate x ≤ zone.localDate y :=
  dateOf_offsetFrom_mono h.inOrder h.folds hxy

/-- The whole second an instant lies in. -/
def floorSecond (x : Int) : Int := x - x % second

theorem floorSecond_le (x : Int) : floorSecond x ≤ x := by
  unfold floorSecond second
  omega

theorem second_dvd_floorSecond (x : Int) : second ∣ floorSecond x :=
  Int.dvd_self_sub_emod

theorem lt_of_floorSecond_lt {x y : Int} (hy : second ∣ y) (h : floorSecond x < y) : x < y := by
  unfold floorSecond at h
  unfold second at hy h
  omega

/-- **The local clock changes dates at whole seconds only.** -/
theorem localDate_floorSecond (zone : ZoneInfo) (x : Int) :
    zone.localDate (floorSecond x) = zone.localDate x := by
  have hsame : ∀ utc : Int, utc * second ≤ floorSecond x ↔ utc * second ≤ x := by
    intro utc
    constructor
    · exact fun h => Int.le_trans h (floorSecond_le x)
    · intro h
      by_contra hlt
      exact absurd h (Int.not_le.mpr
        (lt_of_floorSecond_lt (Int.dvd_mul_left _ _) (Int.not_le.mp hlt)))
  have hoffset : zone.utcoffset (floorSecond x) = zone.utcoffset x := by
    unfold utcoffset
    simp only [hsame]
  unfold localDate astimezone
  rw [hoffset]
  generalize zone.utcoffset x = offset
  show (x - x % 1000000 + offset * 1000000 : Int) / 86400000000 =
    (x + offset * 1000000) / 86400000000
  omega

/-! ## 2. The instants of a local time -/

/-- What the local clock shows at an instant. -/
def clockFrom (offset : Int) (transitions : List Transition) (x : Int) : Int :=
  x + offsetFrom offset transitions x * second

/-- The offset that is picked for a local time. -/
def wallFrom (fold : Bool) (offset : Int) (transitions : List Transition) (naive : Int) : Int :=
  (transitions.foldl
    (fun state t => (t.offset, if wallTime fold state.1 t ≤ naive then t.offset else state.2))
    (offset, offset)).2

/-- The local times between which a change skips or repeats. -/
def Transition.low (offset : Int) (t : Transition) : Int := t.utc + min offset t.offset

def Transition.high (offset : Int) (t : Transition) : Int := t.utc + max offset t.offset

/-- Changes that neither overlap nor touch on the local clock. -/
def apartFrom : Int → List Transition → Prop
  | _, [] => True
  | offset, t :: rest =>
      (∀ t' ∈ rest.head?, Transition.high offset t < Transition.low t.offset t') ∧
        apartFrom t.offset rest

/-- Changes that keep apart: each ends on a whole minute, skips at most 180 of them, and the next
    one begins at least one later. -/
def spacedFrom : Int → List Transition → Prop
  | _, [] => True
  | offset, t :: rest =>
      60 ∣ Transition.high offset t ∧ t.offset - offset ≤ 180 * 60 ∧
        (∀ t' ∈ rest.head?, Transition.high offset t + 60 ≤ Transition.low t.offset t') ∧
        spacedFrom t.offset rest

section Spaced

variable {fold : Bool} {offset naive x : Int} {t : Transition} {rest transitions : List Transition}

theorem apartFrom_of_spaced (h : spacedFrom offset transitions) : apartFrom offset transitions := by
  induction transitions generalizing offset with
  | nil => trivial
  | cons t rest ih =>
      obtain ⟨_, _, hnext, hrest⟩ := h
      exact ⟨fun t' ht' => Int.lt_of_lt_of_le (Int.lt_add_of_pos_right _ (by decide)) (hnext t' ht'),
        ih hrest⟩

theorem wallFrom_past (h : wallTime fold offset t ≤ naive) :
    wallFrom fold offset (t :: rest) naive = wallFrom fold t.offset rest naive := by
  rw [wallFrom, List.foldl_cons, if_pos h]
  rfl

/-- Before the next change the offset that is picked stays as it is. -/
theorem wall_stays {picked : Int} (hapart : apartFrom offset transitions)
    (h : ∀ t ∈ transitions.head?, naive < wallTime fold offset t) :
    (transitions.foldl
      (fun state t => (t.offset, if wallTime fold state.1 t ≤ naive then t.offset else state.2))
      (offset, picked)).2 = picked := by
  induction transitions generalizing offset with
  | nil => rfl
  | cons t rest ih =>
      obtain ⟨hnext, hrest⟩ := hapart
      have hhere := h t rfl
      rw [List.foldl_cons, if_neg (Int.not_le.mpr hhere)]
      refine ih hrest fun t' ht' => ?_
      have hlater := hnext t' ht'
      unfold wallTime Transition.high Transition.low second at *
      cases fold
      · simp only [Bool.false_eq_true, if_false] at hhere ⊢
        omega
      · simp only [if_true] at hhere ⊢
        omega

theorem wallFrom_future (hapart : apartFrom offset transitions)
    (h : ∀ t ∈ transitions.head?, naive < wallTime fold offset t) :
    wallFrom fold offset transitions naive = offset :=
  wall_stays hapart h

/-- What the clock shows from an instant on, where it starts no earlier and the next change
    leads no further back. -/
theorem le_clockFrom {bound : Int} (horder : transitions.Pairwise fun t t' => t.utc < t'.utc)
    (hapart : apartFrom offset transitions) (hbound : bound ≤ x + offset * second)
    (hnext : ∀ t ∈ transitions.head?, bound ≤ Transition.low offset t * second) :
    bound ≤ clockFrom offset transitions x := by
  induction transitions generalizing offset with
  | nil => exact hbound
  | cons t rest ih =>
      obtain ⟨hlater, hrest⟩ := List.pairwise_cons.mp horder
      obtain ⟨hfollow, hapart⟩ := hapart
      have hlow := hnext t rfl
      rcases Int.lt_or_le x (t.utc * second) with hbefore | hpast
      · rw [clockFrom, offsetFrom_before hlater hbefore]
        exact hbound
      · have hrun : bound ≤ clockFrom t.offset rest x := by
          refine ih hrest hapart ?_ fun t' ht' => ?_
          · unfold Transition.low second at *
            omega
          · have hafter := hfollow t' ht'
            unfold Transition.low Transition.high second at *
            omega
        rw [clockFrom, offsetFrom_past hpast]
        exact hrun

/-- The instant that is found for a local time. -/
def toUtcFrom (fold : Bool) (offset : Int) (transitions : List Transition) (naive : Int) : Int :=
  naive - wallFrom fold offset transitions naive * second

/-- What is found for a local time: the instants that show it, the first of them as the earliest
    that shows it or a later time, or nothing, in a gap. -/
inductive Resolves (offset : Int) (transitions : List Transition) (naive : Int) : Prop where
  | shown (hle : toUtcFrom false offset transitions naive ≤ toUtcFrom true offset transitions naive)
      (hshows : ∀ fold, clockFrom offset transitions (toUtcFrom fold offset transitions naive) = naive)
      (hfirst : clockFrom offset transitions (toUtcFrom false offset transitions naive - 1) < naive)
  | skipped {high : Int} (hbefore : naive < high) (hlimit : high ≤ naive + 180 * 60 * second)
      (hwhole : 60 * second ∣ high)
      (hgap : ∀ n, naive ≤ n → n < high → ∀ fold,
        clockFrom offset transitions (toUtcFrom fold offset transitions n) ≠ n)
      (hshows : clockFrom offset transitions (toUtcFrom false offset transitions high) = high)
      (hfirst : clockFrom offset transitions (toUtcFrom false offset transitions high - 1) < naive)

theorem wallTime_false : wallTime false offset t = Transition.high offset t * second := rfl

theorem wallTime_true : wallTime true offset t = Transition.low offset t * second := rfl

theorem low_le_high : Transition.low offset t ≤ Transition.high offset t := by
  unfold Transition.low Transition.high
  omega

theorem wallTime_le : wallTime fold offset t ≤ Transition.high offset t * second := by
  have hle : Transition.low offset t ≤ Transition.high offset t := low_le_high
  cases fold
  · exact Int.le_refl _
  · exact Int.mul_le_mul_of_nonneg_right hle (by decide)

theorem le_wallTime : Transition.low offset t * second ≤ wallTime fold offset t := by
  have hle : Transition.low offset t ≤ Transition.high offset t := low_le_high
  cases fold
  · exact Int.mul_le_mul_of_nonneg_right hle (by decide)
  · exact Int.le_refl _

theorem toUtcFrom_past (h : wallTime fold offset t ≤ naive) :
    toUtcFrom fold offset (t :: rest) naive = toUtcFrom fold t.offset rest naive := by
  rw [toUtcFrom, wallFrom_past h]
  rfl

/-- Before the next change the offset is the one that is there. -/
theorem before_change (horder : transitions.Pairwise fun t t' => t.utc < t'.utc)
    (hapart : apartFrom offset transitions)
    (h : ∀ t ∈ transitions.head?, naive < Transition.low offset t * second) :
    (∀ fold, toUtcFrom fold offset transitions naive = naive - offset * second) ∧
      ∀ x, x ≤ naive - offset * second → clockFrom offset transitions x = x + offset * second := by
  constructor
  · intro fold
    rw [toUtcFrom, wallFrom_future hapart fun t ht => Int.lt_of_lt_of_le (h t ht) le_wallTime]
  · intro x hx
    cases transitions with
    | nil => rfl
    | cons t rest =>
        have hlow := h t rfl
        have hbefore : x < t.utc * second := by
          unfold Transition.low second at *
          omega
        rw [clockFrom, offsetFrom_before (List.pairwise_cons.mp horder).1 hbefore]

/-- A local time before all changes is shown once. -/
theorem resolves_before (horder : transitions.Pairwise fun t t' => t.utc < t'.utc)
    (hspaced : spacedFrom offset transitions)
    (h : ∀ t ∈ transitions.head?, naive < Transition.low offset t * second) :
    Resolves offset transitions naive := by
  obtain ⟨hutc, hclock⟩ := before_change horder (apartFrom_of_spaced hspaced) h
  refine .shown ?_ (fun fold => ?_) ?_
  · rw [hutc, hutc]
  · rw [hutc, hclock _ (Int.le_refl _)]
    exact Int.sub_add_cancel _ _
  · rw [hutc, hclock _ (by omega)]
    omega

section Change

variable (horder : (t :: rest).Pairwise fun t t' => t.utc < t'.utc)
  (hspaced : spacedFrom offset (t :: rest)) (hlow : Transition.low offset t * second ≤ naive)

include horder hspaced hlow

/-- What the local times that a change skips or repeats have in common. -/
theorem within_change (hhigh : naive < Transition.high offset t * second) :
    toUtcFrom false offset (t :: rest) naive = naive - offset * second ∧
      toUtcFrom true offset (t :: rest) naive = naive - t.offset * second ∧
      (∀ x, x < t.utc * second → clockFrom offset (t :: rest) x = x + offset * second) ∧
      ∀ x, t.utc * second ≤ x → x ≤ naive - t.offset * second →
        clockFrom offset (t :: rest) x = x + t.offset * second := by
  have ⟨hfollow, hrest⟩ := apartFrom_of_spaced hspaced
  have ⟨hlater, horder⟩ := List.pairwise_cons.mp horder
  have hnext : ∀ t' ∈ rest.head?, naive < Transition.low t.offset t' * second := by
    intro t' ht'
    have hlater := hfollow t' ht'
    unfold second at *
    omega
  obtain ⟨hutc, hclock⟩ := before_change horder hrest hnext
  refine ⟨?_, ?_, fun x hx => ?_, fun x hx hle => ?_⟩
  · rw [toUtcFrom, wallFrom_future (apartFrom_of_spaced hspaced) fun t' ht' => ?_]
    obtain rfl := Option.some.inj ht'
    exact hhigh
  · rw [toUtcFrom_past hlow, hutc]
  · rw [clockFrom, offsetFrom_before hlater hx]
  · rw [clockFrom, offsetFrom_past hx]
    exact hclock x hle

/-- A local time that a change repeats is shown before it and after it. -/
theorem resolves_repeated (hback : t.offset < offset)
    (hhigh : naive < Transition.high offset t * second) : Resolves offset (t :: rest) naive := by
  obtain ⟨hfirst, hsecond, hbefore, hafter⟩ := within_change horder hspaced hlow hhigh
  have hfirstBefore : naive - offset * second < t.utc * second := by
    unfold Transition.high second at *
    omega
  have hsecondAfter : t.utc * second ≤ naive - t.offset * second := by
    unfold Transition.low second at *
    omega
  refine .shown ?_ (fun fold => ?_) ?_
  · rw [hfirst, hsecond]
    omega
  · cases fold
    · rw [hfirst, hbefore _ hfirstBefore]
      exact Int.sub_add_cancel _ _
    · rw [hsecond, hafter _ hsecondAfter (Int.le_refl _)]
      exact Int.sub_add_cancel _ _
  · rw [hfirst, hbefore _ (by omega)]
    omega

/-- A local time that a change skips: the clock goes on with the whole minute after the gap. -/
theorem resolves_skipped (hforward : offset < t.offset)
    (hhigh : naive < Transition.high offset t * second) : Resolves offset (t :: rest) naive := by
  have ⟨hminute, hlimit, hapart, hrest⟩ := hspaced
  have ⟨hlater, horder'⟩ := List.pairwise_cons.mp horder
  have hhighEq : Transition.high offset t = t.utc + t.offset := by
    unfold Transition.high
    omega
  have hlowEq : Transition.low offset t = t.utc + offset := by
    unfold Transition.low
    omega
  -- from the change on the clock shows what is after the gap
  have hpast : ∀ x, t.utc * second ≤ x →
      Transition.high offset t * second ≤ clockFrom offset (t :: rest) x := by
    intro x hx
    rw [clockFrom, offsetFrom_past hx]
    refine le_clockFrom horder' (apartFrom_of_spaced hrest) ?_ fun t' ht' => ?_
    · rw [hhighEq, Int.add_mul]
      exact Int.add_le_add_right hx _
    · have hnext := hapart t' ht'
      unfold second
      omega
  have hutc : toUtcFrom false offset (t :: rest) (Transition.high offset t * second) =
      t.utc * second := by
    rw [toUtcFrom_past (Int.le_of_eq wallTime_false),
      (before_change horder' (apartFrom_of_spaced hrest) fun t' ht' => ?_).1, hhighEq, Int.add_mul]
    · omega
    · have hnext := hapart t' ht'
      unfold second
      omega
  refine .skipped hhigh ?_ ?_ (fun n hn hn' fold hshows => ?_) ?_ ?_
  · rw [hhighEq]
    rw [hlowEq] at hlow
    unfold second at *
    omega
  · exact Int.mul_dvd_mul hminute (Int.dvd_refl _)
  · obtain ⟨hfirst, hsecond, hbefore, _⟩ := within_change horder hspaced (Int.le_trans hlow hn) hn'
    rw [hlowEq] at hlow
    cases fold
    · have hafter := hpast (n - offset * second) (by
        unfold second at *
        omega)
      rw [hfirst] at hshows
      omega
    · rw [hhighEq] at hn'
      rw [hsecond, hbefore _ (by
        unfold second at *
        omega)] at hshows
      unfold second at *
      omega
  · rw [hutc, clockFrom, offsetFrom_past (Int.le_refl _),
      offsetFrom_future (lt_later hlater (Int.le_refl _)), hhighEq, Int.add_mul]
  · rw [hutc, clockFrom, offsetFrom_before hlater (by omega)]
    rw [hlowEq] at hlow
    unfold second at *
    omega

end Change

/-- A local time after a change is resolved by the changes after it. -/
theorem resolves_after (horder : (t :: rest).Pairwise fun t t' => t.utc < t'.utc)
    (h : Transition.high offset t * second ≤ naive) (hrun : Resolves t.offset rest naive) :
    Resolves offset (t :: rest) naive := by
  have ⟨hlater, _⟩ := List.pairwise_cons.mp horder
  have hutc : ∀ n, naive ≤ n → ∀ fold,
      toUtcFrom fold offset (t :: rest) n = toUtcFrom fold t.offset rest n :=
    fun n hn fold => toUtcFrom_past (Int.le_trans wallTime_le (Int.le_trans h hn))
  have hpast : ∀ x, t.utc * second ≤ x → clockFrom offset (t :: rest) x = clockFrom t.offset rest x := by
    intro x hx
    rw [clockFrom, offsetFrom_past hx]
    rfl
  -- before the change the clock shows less
  have hearly : ∀ x, x < t.utc * second → clockFrom offset (t :: rest) x < naive := by
    intro x hx
    rw [clockFrom, offsetFrom_before hlater hx]
    unfold Transition.high second at *
    omega
  have hafter : ∀ x n, naive ≤ n → clockFrom t.offset rest x = n → t.utc * second ≤ x := by
    intro x n hn hshows
    by_contra hbefore
    rw [clockFrom, offsetFrom_future (lt_later hlater (Int.le_of_lt (Int.not_le.mp hbefore)))] at hshows
    unfold Transition.high second at *
    omega
  have hfirst : ∀ x, clockFrom t.offset rest (x - 1) < naive →
      clockFrom offset (t :: rest) (x - 1) < naive := by
    intro x hx
    rcases Int.lt_or_le (x - 1) (t.utc * second) with hbefore | hreached
    · exact hearly _ hbefore
    · rwa [hpast _ hreached]
  cases hrun with
  | shown hle hshows hearliest =>
      refine .shown ?_ (fun fold => ?_) ?_
      · rw [hutc _ (Int.le_refl _), hutc _ (Int.le_refl _)]
        exact hle
      · rw [hutc _ (Int.le_refl _), hpast _ (hafter _ _ (Int.le_refl _) (hshows fold))]
        exact hshows fold
      · rw [hutc _ (Int.le_refl _)]
        exact hfirst _ hearliest
  | @skipped high hbefore hlimit hwhole hgap hshows hearliest =>
      refine .skipped hbefore hlimit hwhole (fun n hn hn' fold hshown => ?_) ?_ ?_
      · rw [hutc n hn] at hshown
        rcases Int.lt_or_le (toUtcFrom fold t.offset rest n) (t.utc * second) with hlt | hreached
        · have hless := hearly _ hlt
          omega
        · rw [hpast _ hreached] at hshown
          exact hgap n hn hn' fold hshown
      · rw [hutc _ (Int.le_of_lt hbefore), hpast _ (hafter _ _ (Int.le_of_lt hbefore) hshows)]
        exact hshows
      · rw [hutc _ (Int.le_of_lt hbefore)]
        exact hfirst _ hearliest

/-- **Every local time is resolved**, the induction being on the changes that are left. -/
theorem resolve (horder : transitions.Pairwise fun t t' => t.utc < t'.utc)
    (hspaced : spacedFrom offset transitions) (naive : Int) : Resolves offset transitions naive := by
  induction transitions generalizing offset with
  | nil => exact resolves_before horder hspaced fun _ ht => nomatch ht
  | cons t rest ih =>
      rcases Int.lt_or_le naive (Transition.low offset t * second) with hbefore | hlow
      · refine resolves_before horder hspaced fun t' ht' => ?_
        obtain rfl := Option.some.inj ht'
        exact hbefore
      · rcases Int.lt_or_le naive (Transition.high offset t * second) with hwithin | hpast
        · rcases Int.lt_trichotomy t.offset offset with hback | hsame | hforward
          · exact resolves_repeated horder hspaced hlow hback hwithin
          · -- a change of nothing neither skips nor repeats
            unfold Transition.low Transition.high second at *
            omega
          · exact resolves_skipped horder hspaced hlow hforward hwithin
        · exact resolves_after horder hpast (ih (List.pairwise_cons.mp horder).2 hspaced.2.2.2)

end Spaced

/-- The changes of a zone keep apart. -/
def Spaced (zone : ZoneInfo) : Prop := spacedFrom zone.before zone.transitions

theorem Spaced.resolve {zone : ZoneInfo} (h : zone.Spaced) (hzone : zone.FoldsWithinDates)
    (naive : Int) : Resolves zone.before zone.transitions naive :=
  ZoneInfo.resolve hzone.inOrder h naive

end Helpdesk.Python.ZoneInfo
