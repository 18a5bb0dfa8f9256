/-
  File:      Helpdesk/Lib/Timeline.lean
  Subject:   Working time: counting it and walking along it.

  A slot is a half-open stretch `[i.1, i.2)` of a time line. `worked l u` counts
  the whole units of the slots inside `[l, u)`, slot by slot; `walk` goes forward
  through the slots until a number of units is used up. A `Timeline` sorts its
  slots into dates: counting sums over the dates of its two ends, walking goes
  from date to date (`Reaches`).

  * `Timeline.between_add`: counting is additive at every whole unit;
  * `Timeline.reaches_iff`: the instant a walk of `k` units reaches is at or
    before `t` exactly if `k` units are counted until `t`, so walking is the
    lower adjoint of counting;
  * `Timeline.between_reaches`: until there, exactly `k` units are counted.
-/
import Mathlib

namespace Helpdesk

abbrev Slot := Int × Int

variable {unit l s u t : Int}

/-! ## 1. One slot -/

/-- The whole units in `[x, y)`. -/
def ticks (unit x y : Int) : Int := if x < y then (y - x) / unit else 0

theorem ticks_eq_zero {x y : Int} (h : y ≤ x) : ticks unit x y = 0 := by
  unfold ticks
  rw [if_neg (Int.not_lt.mpr h)]

theorem ticks_of_le {x y : Int} (h : x ≤ y) : ticks unit x y = (y - x) / unit := by
  unfold ticks
  split
  · rfl
  · rename_i hlt
    have hsame : y - x = 0 := by omega
    rw [hsame, Int.zero_ediv]

theorem ticks_nonneg (hunit : 0 < unit) (x y : Int) : 0 ≤ ticks unit x y := by
  by_cases h : x ≤ y
  · rw [ticks_of_le h]
    exact Int.ediv_nonneg (by omega) (Int.le_of_lt hunit)
  · rw [ticks_eq_zero (by omega)]

theorem ticks_mono (hunit : 0 < unit) {x y z : Int} (h : y ≤ z) :
    ticks unit x y ≤ ticks unit x z := by
  by_cases hxy : x ≤ y
  · rw [ticks_of_le hxy, ticks_of_le (Int.le_trans hxy h)]
    exact Int.ediv_le_ediv hunit (by omega)
  · rw [ticks_eq_zero (by omega)]
    exact ticks_nonneg hunit x z

/-- Counting may be interrupted after whole units. -/
theorem ticks_add {x y z : Int} (hxy : x ≤ y) (hyz : y ≤ z) (hwhole : unit ∣ y - x) :
    ticks unit x y + ticks unit y z = ticks unit x z := by
  rw [ticks_of_le hxy, ticks_of_le hyz, ticks_of_le (Int.le_trans hxy hyz),
    ← Int.add_ediv_of_dvd_left hwhole]
  congr 1
  omega

/-- The instant `k` units after `x` is reached by `y` exactly if they are counted. -/
theorem le_ticks_iff (hunit : 0 < unit) {x y k : Int} (hk : 0 < k) :
    k ≤ ticks unit x y ↔ x + k * unit ≤ y := by
  have hpositive : 0 < k * unit := Int.mul_pos hk hunit
  by_cases h : x ≤ y
  · rw [ticks_of_le h, Int.le_ediv_iff_mul_le hunit]
    omega
  · rw [ticks_eq_zero (by omega)]
    omega

/-! ## 2. The slots of a date -/

def Slot.worked (unit l u : Int) (i : Slot) : Int := ticks unit (max l i.1) (min u i.2)

def worked (unit l u : Int) (slots : List Slot) : Int :=
  (slots.map (Slot.worked unit l u)).sum

section Worked

variable {i : Slot} {slots : List Slot}

@[simp] theorem worked_nil : worked unit l u [] = 0 := rfl

@[simp] theorem worked_cons :
    worked unit l u (i :: slots) = i.worked unit l u + worked unit l u slots := rfl

theorem worked_nonneg (hunit : 0 < unit) : 0 ≤ worked unit l u slots := by
  induction slots with
  | nil => exact Int.le_refl 0
  | cons i slots ih =>
      have hi : 0 ≤ i.worked unit l u := ticks_nonneg hunit _ _
      rw [worked_cons]
      omega

theorem worked_mono (hunit : 0 < unit) (h : u ≤ t) :
    worked unit l u slots ≤ worked unit l t slots := by
  induction slots with
  | nil => exact Int.le_refl 0
  | cons i slots ih =>
      have hi : i.worked unit l u ≤ i.worked unit l t :=
        ticks_mono hunit (min_le_min_right i.2 h)
      rw [worked_cons, worked_cons]
      omega

/-- Slots that are over before the count starts. -/
theorem worked_past (h : ∀ i ∈ slots, i.2 ≤ l) : worked unit l u slots = 0 := by
  induction slots with
  | nil => rfl
  | cons i slots ih =>
      have hi : i.worked unit l u = 0 := by
        have hover := h i List.mem_cons_self
        exact ticks_eq_zero (by omega)
      rw [worked_cons, hi, ih fun j hj => h j (List.mem_cons_of_mem _ hj)]
      rfl

/-- Slots that begin after the count ends. -/
theorem worked_future (h : ∀ i ∈ slots, u ≤ i.1) : worked unit l u slots = 0 := by
  induction slots with
  | nil => rfl
  | cons i slots ih =>
      have hi : i.worked unit l u = 0 := by
        have hlater := h i List.mem_cons_self
        exact ticks_eq_zero (by omega)
      rw [worked_cons, hi, ih fun j hj => h j (List.mem_cons_of_mem _ hj)]
      rfl

/-- A count that ends before it starts. -/
theorem worked_empty (h : u ≤ l) : worked unit l u slots = 0 := by
  induction slots with
  | nil => rfl
  | cons i slots ih =>
      have hi : i.worked unit l u = 0 := ticks_eq_zero (by omega)
      rw [worked_cons, hi, ih]
      rfl

/-- **Counting is additive at a whole unit**, for slots that begin at one. -/
theorem worked_add (hls : l ≤ s) (hsu : s ≤ u) (hl : unit ∣ l) (hs : unit ∣ s)
    (haligned : ∀ i ∈ slots, unit ∣ i.1) :
    worked unit l s slots + worked unit s u slots = worked unit l u slots := by
  induction slots with
  | nil => rfl
  | cons i slots ih =>
      have hi : i.worked unit l s + i.worked unit s u = i.worked unit l u := by
        unfold Slot.worked
        by_cases hover : i.2 ≤ s
        · rw [ticks_eq_zero (show min u i.2 ≤ max s i.1 by omega),
            show min s i.2 = min u i.2 by omega, Int.add_zero]
        · by_cases hlater : s ≤ i.1
          · rw [ticks_eq_zero (show min s i.2 ≤ max l i.1 by omega),
              show max s i.1 = max l i.1 by omega, Int.zero_add]
          · rw [show min s i.2 = s by omega, show max s i.1 = s by omega]
            refine ticks_add (by omega) (by omega) (Int.dvd_sub hs ?_)
            rcases max_choice l i.1 with hmax | hmax <;> rw [hmax]
            exacts [hl, haligned i List.mem_cons_self]
      have hrest := ih fun j hj => haligned j (List.mem_cons_of_mem _ hj)
      rw [worked_cons, worked_cons, worked_cons]
      omega

/-- The unit that is lost where counting from `l` to `u` is interrupted at `s`: what is left over
    on both sides makes a whole unit. -/
def carry (unit l s u : Int) : Int :=
  if l < s ∧ s < u ∧ unit ≤ (s - l) % unit + (u - s) % unit then 1 else 0

theorem carry_nonneg : 0 ≤ carry unit l s u := by
  unfold carry
  split <;> decide

theorem carry_eq_zero_iff : carry unit l s u = 0 ↔
    (l < s → s < u → (s - l) % unit + (u - s) % unit < unit) := by
  unfold carry
  split
  · rename_i h
    exact ⟨fun hone => absurd hone (by decide), fun hless => absurd (hless h.1 h.2.1) (Int.not_lt.mpr h.2.2)⟩
  · rename_i h
    exact ⟨fun _ hl hu => Int.not_le.mp fun hle => h ⟨hl, hu, hle⟩, fun _ => rfl⟩

/-- Counting that is interrupted inside. -/
theorem ticks_split (hunit : 0 < unit) {x y z : Int} (hxy : x < y) (hyz : y < z) :
    ticks unit x y + ticks unit y z + carry unit x y z = ticks unit x z := by
  have hwhole : z - x = (y - x) + (z - y) := by omega
  rw [ticks_of_le (Int.le_of_lt hxy), ticks_of_le (Int.le_of_lt hyz),
    ticks_of_le (Int.le_of_lt (Int.lt_trans hxy hyz)), hwhole, Int.add_ediv_of_pos hunit]
  unfold carry
  simp only [hxy, hyz, true_and]

theorem ticks_eq_zero_iff (hunit : 0 < unit) {x y : Int} : ticks unit x y = 0 ↔ y < x + unit := by
  have hone := le_ticks_iff hunit (x := x) (y := y) Int.one_pos
  have hnonneg := ticks_nonneg hunit x y
  omega

/-- What is lost in all slots. -/
def lost (unit l s u : Int) (slots : List Slot) : Int :=
  (slots.map fun i => carry unit (max l i.1) s (min u i.2)).sum

theorem lost_nonneg : 0 ≤ lost unit l s u slots := by
  induction slots with
  | nil => exact Int.le_refl _
  | cons i slots ih => exact Int.add_nonneg carry_nonneg ih

theorem lost_eq_zero_iff : lost unit l s u slots = 0 ↔
    ∀ i ∈ slots, carry unit (max l i.1) s (min u i.2) = 0 := by
  induction slots with
  | nil => exact iff_of_true rfl fun i hi => absurd hi List.not_mem_nil
  | cons i slots ih =>
      have hhere : 0 ≤ carry unit (max l i.1) s (min u i.2) := carry_nonneg
      have hrest : 0 ≤ lost unit l s u slots := lost_nonneg
      have hsum : lost unit l s u (i :: slots) =
          carry unit (max l i.1) s (min u i.2) + lost unit l s u slots := rfl
      rw [List.forall_mem_cons, ← ih, hsum]
      omega

theorem worked_eq_zero_iff (hunit : 0 < unit) :
    worked unit l u slots = 0 ↔ ∀ i ∈ slots, min u i.2 < max l i.1 + unit := by
  induction slots with
  | nil => exact iff_of_true rfl fun i hi => absurd hi List.not_mem_nil
  | cons i slots ih =>
      have hhere : 0 ≤ i.worked unit l u := ticks_nonneg hunit _ _
      have hrest : 0 ≤ worked unit l u slots := worked_nonneg hunit
      rw [List.forall_mem_cons, ← ih, ← ticks_eq_zero_iff hunit, worked_cons]
      show i.worked unit l u + worked unit l u slots = 0 ↔ i.worked unit l u = 0 ∧ _
      omega

/-- **Counting in two parts** misses what is lost between them. -/
theorem worked_split (hunit : 0 < unit) (hls : l ≤ s) (hsu : s ≤ u) :
    worked unit l s slots + worked unit s u slots + lost unit l s u slots =
      worked unit l u slots := by
  induction slots with
  | nil => rfl
  | cons i slots ih =>
      have hi : i.worked unit l s + i.worked unit s u + carry unit (max l i.1) s (min u i.2) =
          i.worked unit l u := by
        unfold Slot.worked
        by_cases hbefore : max l i.1 < s
        · by_cases hafter : s < min u i.2
          · rw [show min s i.2 = s by omega, show max s i.1 = s by omega]
            exact ticks_split hunit hbefore hafter
          · have hnone : carry unit (max l i.1) s (min u i.2) = 0 :=
              carry_eq_zero_iff.mpr fun _ hlt => absurd hlt hafter
            rw [hnone, ticks_eq_zero (show min u i.2 ≤ max s i.1 by omega), Int.add_zero,
              Int.add_zero, show min s i.2 = min u i.2 by omega]
        · have hnone : carry unit (max l i.1) s (min u i.2) = 0 :=
            carry_eq_zero_iff.mpr fun hlt => absurd hlt hbefore
          rw [hnone, ticks_eq_zero (show min s i.2 ≤ max l i.1 by omega), Int.add_zero,
            Int.zero_add, show max s i.1 = max l i.1 by omega]
      have hsum : lost unit l s u (i :: slots) =
          carry unit (max l i.1) s (min u i.2) + lost unit l s u slots := rfl
      rw [worked_cons, worked_cons, worked_cons, hsum]
      omega

/-- A slot counts at most as much as all of them. -/
theorem worked_mem_le (hunit : 0 < unit) (hi : i ∈ slots) :
    i.worked unit l u ≤ worked unit l u slots := by
  induction slots with
  | nil => exact absurd hi List.not_mem_nil
  | cons j slots ih =>
      have hj : 0 ≤ j.worked unit l u := ticks_nonneg hunit _ _
      have hrest : 0 ≤ worked unit l u slots := worked_nonneg hunit
      rw [worked_cons]
      rcases List.mem_cons.mp hi with rfl | hmem
      · omega
      · have hle := ih hmem
        omega

/-- The unit before `t` in a slot. -/
theorem one_le_worked (hunit : 0 < unit) (ht : unit ∣ t) (hi : i ∈ slots) (haligned : unit ∣ i.1)
    (hstart : i.1 < t) (hend : t ≤ i.2) : 1 ≤ worked unit (t - unit) t slots := by
  refine Int.le_trans ?_ (worked_mem_le hunit hi)
  have hfull : i.1 ≤ t - unit := by
    have hle := Int.le_of_dvd (by omega) (Int.dvd_sub ht haligned)
    omega
  unfold Slot.worked
  rw [show max (t - unit) i.1 = t - unit by omega, show min t i.2 = t by omega,
    le_ticks_iff hunit Int.one_pos]
  omega

/-- Two starting points that no slot tells apart. -/
theorem worked_congr (h : ∀ i ∈ slots, max l i.1 = max s i.1) :
    worked unit l u slots = worked unit s u slots := by
  induction slots with
  | nil => rfl
  | cons i slots ih =>
      have hi : i.worked unit l u = i.worked unit s u := by
        unfold Slot.worked
        rw [h i List.mem_cons_self]
      rw [worked_cons, worked_cons, hi, ih fun j hj => h j (List.mem_cons_of_mem _ hj)]

end Worked

/-! ## 3. Walking along the slots of a date -/

/-- Go forward from `current` until `remaining` units are used up: the instant
    reached inside the slots, or the units that are left after them. -/
def walk (unit current : Int) : Int → List Slot → Int ⊕ Int
  | remaining, [] => .inr remaining
  | remaining, i :: rest =>
      let cursor := max current i.1
      if i.2 ≤ cursor then walk unit current remaining rest
      else
        let available := (i.2 - cursor) / unit
        if remaining ≤ available then .inl (cursor + remaining * unit)
        else walk unit current (remaining - available) rest

/-- Slots in order, none reaching into a later one. -/
def InSequence (slots : List Slot) : Prop := slots.Pairwise fun i j => i.2 ≤ j.1

section Walk

variable {current : Int}

/-- **The instant reached inside the slots.** -/
theorem walk_reached (hunit : 0 < unit) :
    ∀ {slots : List Slot} {remaining T : Int}, InSequence slots → 0 < remaining →
      walk unit current remaining slots = .inl T →
      (∀ t, T ≤ t ↔ remaining ≤ worked unit current t slots) ∧ ∃ i ∈ slots, i.1 < T ∧ T ≤ i.2
  | [], remaining, T, _, _, h => nomatch h
  | i :: rest, remaining, T, hseq, hpositive, h => by
      obtain ⟨hlater, hrest⟩ := List.pairwise_cons.mp hseq
      rw [walk] at h
      dsimp only at h
      split at h
      · rename_i hover
        obtain ⟨hiff, j, hj, hT⟩ := walk_reached hunit hrest hpositive h
        refine ⟨fun t => ?_, j, List.mem_cons_of_mem _ hj, hT⟩
        have hnone : Slot.worked unit current t i = 0 := ticks_eq_zero (by omega)
        rw [hiff t, worked_cons, hnone, Int.zero_add]
      · rename_i hopen
        have havailable : ∀ t, i.2 ≤ t →
            Slot.worked unit current t i = (i.2 - max current i.1) / unit := by
          intro t ht
          unfold Slot.worked
          rw [show min t i.2 = i.2 by omega, ticks_of_le (by omega)]
        have hafter : ∀ t, t < i.2 → worked unit current t rest = 0 := by
          intro t ht
          refine worked_future fun j hj => ?_
          have := hlater j hj
          omega
        split at h
        · rename_i hhere
          obtain rfl := Sum.inl.inj h
          have hinside : max current i.1 + remaining * unit ≤ i.2 := by
            rw [Int.le_ediv_iff_mul_le hunit] at hhere
            omega
          have hforward : 0 < remaining * unit := Int.mul_pos hpositive hunit
          refine ⟨fun t => ?_, i, List.mem_cons_self, by omega, hinside⟩
          rw [worked_cons]
          by_cases ht : i.2 ≤ t
          · have hrest : 0 ≤ worked unit current t rest := worked_nonneg hunit
            rw [havailable t ht]
            constructor
            · intro _
              omega
            · intro _
              omega
          · rw [hafter t (by omega), Int.add_zero]
            unfold Slot.worked
            rw [show min t i.2 = t by omega, le_ticks_iff hunit hpositive]
        · rename_i hbeyond
          obtain ⟨hiff, j, hj, hT⟩ := walk_reached hunit hrest (by omega) h
          refine ⟨fun t => ?_, j, List.mem_cons_of_mem _ hj, hT⟩
          rw [hiff t, worked_cons]
          by_cases ht : i.2 ≤ t
          · rw [havailable t ht]
            omega
          · have hle : Slot.worked unit current t i ≤ (i.2 - max current i.1) / unit := by
              rw [← havailable i.2 (Int.le_refl _)]
              exact ticks_mono hunit (by omega)
            rw [hafter t (by omega)]
            omega

/-- **The units left after the slots.** -/
theorem walk_left (hunit : 0 < unit) :
    ∀ {slots : List Slot} {remaining left : Int}, 0 < remaining →
      walk unit current remaining slots = .inr left →
      0 < left ∧ (∀ t, worked unit current t slots ≤ remaining - left) ∧
        ∀ t, (∀ i ∈ slots, i.2 ≤ t) → worked unit current t slots = remaining - left
  | [], remaining, left, hpositive, h => by
      obtain rfl := Sum.inr.inj h
      refine ⟨hpositive, fun t => ?_, fun t _ => ?_⟩ <;> rw [worked_nil, Int.sub_self]
  | i :: rest, remaining, left, hpositive, h => by
      rw [walk] at h
      dsimp only at h
      split at h
      · rename_i hover
        obtain ⟨hleft, hle, hall⟩ := walk_left hunit hpositive h
        have hnone : ∀ t, Slot.worked unit current t i = 0 := fun t => ticks_eq_zero (by omega)
        refine ⟨hleft, fun t => ?_, fun t ht => ?_⟩
        · rw [worked_cons, hnone, Int.zero_add]
          exact hle t
        · rw [worked_cons, hnone, Int.zero_add]
          exact hall t fun j hj => ht j (List.mem_cons_of_mem _ hj)
      · rename_i hopen
        split at h
        · cases h
        · rename_i hbeyond
          obtain ⟨hleft, hle, hall⟩ := walk_left hunit (by omega) h
          have hfull : ∀ t, i.2 ≤ t →
              Slot.worked unit current t i = (i.2 - max current i.1) / unit := by
            intro t ht
            unfold Slot.worked
            rw [show min t i.2 = i.2 by omega, ticks_of_le (by omega)]
          refine ⟨hleft, fun t => ?_, fun t ht => ?_⟩
          · have hpart : Slot.worked unit current t i ≤ (i.2 - max current i.1) / unit := by
              rw [← hfull i.2 (Int.le_refl _)]
              exact ticks_mono hunit (by omega)
            have hrest := hle t
            rw [worked_cons]
            omega
          · have hrest := hall t fun j hj => ht j (List.mem_cons_of_mem _ hj)
            rw [worked_cons, hrest, hfull t (ht i List.mem_cons_self)]
            omega

/-- **The units up to the instant reached.** -/
theorem walk_count (hunit : 0 < unit) :
    ∀ {slots : List Slot} {remaining T : Int}, InSequence slots → 0 < remaining →
      walk unit current remaining slots = .inl T → worked unit current T slots = remaining
  | [], remaining, T, _, _, h => nomatch h
  | i :: rest, remaining, T, hseq, hpositive, h => by
      obtain ⟨hlater, hrest⟩ := List.pairwise_cons.mp hseq
      rw [walk] at h
      dsimp only at h
      rw [worked_cons]
      split at h
      · rename_i hover
        have hnone : Slot.worked unit current T i = 0 := ticks_eq_zero (by omega)
        rw [hnone, Int.zero_add]
        exact walk_count hunit hrest hpositive h
      · rename_i hopen
        split at h
        · rename_i hhere
          obtain rfl := Sum.inl.inj h
          rw [Int.le_ediv_iff_mul_le hunit] at hhere
          have hforward : 0 < remaining * unit := Int.mul_pos hpositive hunit
          have hafter : worked unit current (max current i.1 + remaining * unit) rest = 0 := by
            refine worked_future fun j hj => ?_
            have hstart := hlater j hj
            omega
          have hhours : Slot.worked unit current (max current i.1 + remaining * unit) i =
              remaining := by
            unfold Slot.worked
            rw [show min (max current i.1 + remaining * unit) i.2 =
              max current i.1 + remaining * unit by omega, ticks_of_le (by omega),
              add_sub_cancel_left, Int.mul_ediv_cancel _ (Int.ne_of_gt hunit)]
          rw [hhours, hafter, Int.add_zero]
        · rename_i hbeyond
          have hcount := walk_count hunit hrest (by omega) h
          obtain ⟨_, j, hj, hT, _⟩ := walk_reached hunit hrest (by omega) h
          have hstart := hlater j hj
          unfold Slot.worked
          rw [hcount, show min T i.2 = i.2 by omega, ticks_of_le (by omega)]
          omega

/-- Whole units later is at a whole unit. -/
theorem walk_dvd : ∀ {slots : List Slot} {remaining T : Int},
    (∀ i ∈ slots, unit ∣ max current i.1) → walk unit current remaining slots = .inl T → unit ∣ T
  | [], remaining, T, _, h => nomatch h
  | i :: rest, remaining, T, haligned, h => by
      obtain ⟨hhere, hrest⟩ := List.forall_mem_cons.mp haligned
      rw [walk] at h
      dsimp only at h
      split at h
      · exact walk_dvd hrest h
      · split at h
        · obtain rfl := Sum.inl.inj h
          exact Int.dvd_add hhere (Int.dvd_mul_left _ _)
        · exact walk_dvd hrest h

/-- **A walk reaches every whole unit in a slot**, with the units that are counted until there. -/
theorem walk_to (hunit : 0 < unit) {slots : List Slot} {i : Slot} {T : Int}
    (hseq : InSequence slots) (haligned : ∀ i ∈ slots, unit ∣ i.1) (hcurrent : unit ∣ current)
    (hT : unit ∣ T) (hlt : current < T) (hi : i ∈ slots) (hstart : i.1 < T) (hend : T ≤ i.2) :
    0 < worked unit current T slots ∧
      walk unit current (worked unit current T slots) slots = .inl T := by
  have hbefore : current ≤ T - unit := by
    have hle := Int.le_of_dvd (by omega) (Int.dvd_sub hT hcurrent)
    omega
  have hsplit : worked unit current (T - unit) slots + worked unit (T - unit) T slots =
      worked unit current T slots :=
    worked_add hbefore (by omega) hcurrent (Int.dvd_sub hT (Int.dvd_refl unit)) haligned
  have hone := one_le_worked hunit hT hi (haligned i hi) hstart hend
  have hnonneg : 0 ≤ worked unit current (T - unit) slots := worked_nonneg hunit
  have hpositive : 0 < worked unit current T slots := by omega
  refine ⟨hpositive, ?_⟩
  cases hwalk : walk unit current (worked unit current T slots) slots with
  | inr left =>
      obtain ⟨hleft, hle, _⟩ := walk_left hunit hpositive hwalk
      have hhere := hle T
      omega
  | inl T' =>
      obtain ⟨hiff, _⟩ := walk_reached hunit hseq hpositive hwalk
      have hle : T' ≤ T := (hiff T).mpr (Int.le_refl _)
      have hge : ¬ T' ≤ T - unit := fun h => by
        have hcount := (hiff (T - unit)).mp h
        omega
      have hdvd : unit ∣ T' := walk_dvd (fun i hi => by
        rcases max_choice current i.1 with hmax | hmax <;> rw [hmax]
        exacts [hcurrent, haligned i hi]) hwalk
      by_contra hne
      have hlater : 0 < T - T' := by
        have hother : T' ≠ T := fun h => hne (congrArg Sum.inl h)
        omega
      have hunits := Int.le_of_dvd hlater (Int.dvd_sub hT hdvd)
      omega

end Walk

/-! ## 4. Dates -/

/-- **Slots sorted into dates.** A date's slots lie between the instants of the dates
    before and after it; the instants themselves need not be sorted by date. -/
structure Timeline (unit : Int) where
  slots : Int → List Slot
  date : Int → Int
  unit_pos : 0 < unit
  inSequence : ∀ d, InSequence (slots d)
  aligned : ∀ d, ∀ i ∈ slots d, unit ∣ i.1
  past : ∀ d x, d < date x → ∀ i ∈ slots d, i.2 ≤ x
  future : ∀ d x, date x < d → ∀ i ∈ slots d, x ≤ i.1

namespace Timeline

open Finset

variable {unit l s t u : Int} (tl : Timeline unit)

/-- The dates between two instants. -/
noncomputable def dates (l u : Int) : Finset Int := Ico (tl.date l) (tl.date u + 1)

/-- The units worked between two instants. -/
noncomputable def between (l u : Int) : Int := ∑ d ∈ tl.dates l u, worked unit l u (tl.slots d)

variable {tl}

theorem worked_outside {d : Int} (hd : d ∉ tl.dates l u) : worked unit l u (tl.slots d) = 0 := by
  rw [dates, mem_Ico, not_and_or, Int.not_le, Int.not_lt] at hd
  rcases hd with hd | hd
  · exact worked_past (tl.past d l hd)
  · exact worked_future (tl.future d u (by omega))

/-- The dates outside do not count, so any larger set of dates will do. -/
theorem between_eq_sum {S : Finset Int} (hS : tl.dates l u ⊆ S) :
    tl.between l u = ∑ d ∈ S, worked unit l u (tl.slots d) :=
  sum_subset hS fun _ _ hd => worked_outside hd

theorem between_nonneg : 0 ≤ tl.between l u :=
  sum_nonneg fun _ _ => worked_nonneg tl.unit_pos

/-- **Counting is additive at every whole unit.** -/
theorem between_add (hls : l ≤ s) (hsu : s ≤ u) (hl : unit ∣ l) (hs : unit ∣ s) :
    tl.between l s + tl.between s u = tl.between l u := by
  have hls' : tl.dates l s ⊆ tl.dates l s ∪ tl.dates s u ∪ tl.dates l u :=
    subset_union_left.trans subset_union_left
  have hsu' : tl.dates s u ⊆ tl.dates l s ∪ tl.dates s u ∪ tl.dates l u :=
    subset_union_right.trans subset_union_left
  rw [between_eq_sum hls', between_eq_sum hsu', between_eq_sum (l := l) (u := u)
    subset_union_right, ← sum_add_distrib]
  exact sum_congr rfl fun d _ => worked_add hls hsu hl hs (tl.aligned d)

/-- Nothing is counted backwards. -/
theorem between_empty (h : u ≤ l) : tl.between l u = 0 := by
  refine sum_eq_zero fun d _ => ?_
  exact worked_empty h

/-- Dates counted one by one. -/
theorem Ico_toNat (first last : Int) :
    Ico first (first + ((last + 1 - first).toNat : Int)) = Ico first (last + 1) := by
  ext d
  rw [mem_Ico, mem_Ico]
  omega

theorem dates_toNat (tl : Timeline unit) :
    Ico (tl.date l) (tl.date l + ((tl.date u + 1 - tl.date l).toNat : Int)) = tl.dates l u :=
  Ico_toNat _ _

/-- The dates from `l` to `u` are among those from `l` to `s` and from `s` to `u`,
    wherever `s` lies. -/
theorem dates_subset : tl.dates l u ⊆ tl.dates l s ∪ tl.dates s u := by
  intro d hd
  rw [dates, mem_Ico] at hd
  rw [mem_union, dates, dates, mem_Ico, mem_Ico]
  omega

variable (tl)

/-- **The walk from date to date**: `k` units from `current` on `d` reach `T`; on every
    later date it starts no later than the slots of the date. -/
inductive Reaches : (d current k T : Int) → Prop where
  | here {d current k T : Int} (h : walk unit current k (tl.slots d) = .inl T) :
      Reaches d current k T
  | next {d current k left first T : Int} (h : walk unit current k (tl.slots d) = .inr left)
      (hfirst : ∀ i ∈ tl.slots (d + 1), first ≤ i.1) (hnext : Reaches (d + 1) first left T) :
      Reaches d current k T

variable {tl}

/-- The dates from `d` on, up to that of `t`. -/
theorem sum_from {f : Int → Int} {d e : Int} (h : d < e) :
    ∑ x ∈ Ico d e, f x = f d + ∑ x ∈ Ico (d + 1) e, f x := by
  have hsplit : Ico d e = insert d (Ico (d + 1) e) := by
    ext x
    rw [mem_insert, mem_Ico, mem_Ico]
    omega
  have hfresh : d ∉ Ico (d + 1) e := by
    rw [mem_Ico]
    omega
  rw [hsplit, sum_insert hfresh]

theorem sum_consecutive {f : Int → Int} {d m e : Int} (h : d ≤ m) (h' : m ≤ e) :
    ∑ x ∈ Ico d m, f x + ∑ x ∈ Ico m e, f x = ∑ x ∈ Ico d e, f x := by
  rw [← sum_union (Ico_disjoint_Ico_consecutive d m e), Ico_union_Ico_eq_Ico h h']

/-- Two slots that meet count as one. -/
theorem worked_meet {a b c : Int} (hl : unit ∣ l) (ha : unit ∣ a) (hb : unit ∣ b) (hab : a ≤ b)
    (hbc : b ≤ c) : worked unit l u [(a, b)] + worked unit l u [(b, c)] = worked unit l u [(a, c)] := by
  simp only [worked_cons, worked_nil, Int.add_zero]
  unfold Slot.worked
  dsimp only
  by_cases hover : u ≤ b
  · rw [ticks_eq_zero (show min u c ≤ max l b by omega), show min u b = min u c by omega,
      Int.add_zero]
  · by_cases hlater : b ≤ l
    · rw [ticks_eq_zero (show min u b ≤ max l a by omega), show max l b = max l a by omega,
        Int.zero_add]
    · rw [show min u b = b by omega, show max l b = b by omega]
      refine ticks_add (by omega) (by omega) (Int.dvd_sub hb ?_)
      rcases max_choice l a with hmax | hmax <;> rw [hmax]
      exacts [hl, ha]

/-- **Dates of which each is one slot, from its midnight to the next one, count as one slot.** -/
theorem sum_midnights {x : Int → Int} (hl : unit ∣ l) (hwhole : ∀ d, unit ∣ x d)
    (hmono : ∀ d, x d ≤ x (d + 1)) : ∀ {days : Nat} {d : Int}, 0 < days →
      ∑ e ∈ Ico d (d + days), worked unit l u [(x e, x (e + 1))] =
          worked unit l u [(x d, x (d + days))] ∧ x d ≤ x (d + days)
  | 0, _, h => absurd h (Nat.lt_irrefl 0)
  | 1, d, _ => by
      rw [Nat.cast_one, sum_from (Int.lt_succ d), Ico_self, sum_empty, Int.add_zero]
      exact ⟨rfl, hmono d⟩
  | days + 2, d, _ => by
      have hend : d + ((days + 2 : Nat) : Int) = d + 1 + ((days + 1 : Nat) : Int) := by omega
      obtain ⟨hsum, hle⟩ := sum_midnights hl hwhole hmono (d := d + 1) (Nat.succ_pos days)
      rw [sum_from (by omega), hend, hsum]
      exact ⟨worked_meet hl (hwhole d) (hwhole _) (hmono d) hle, Int.le_trans (hmono d) hle⟩

/-- The walk compared with the count over the dates it still has before it. -/
theorem reaches_sum {d current k T : Int} (h : tl.Reaches d current k T) (hk : 0 < k)
    (hd : tl.date s ≤ d) (hcurrent : ∀ i ∈ tl.slots d, max current i.1 = max s i.1) :
    ∀ t, T ≤ t ↔ k ≤ ∑ x ∈ Ico d (tl.date t + 1), worked unit s t (tl.slots x) := by
  induction h with
  | @here d current k T h =>
      obtain ⟨hiff, i, hi, hafter, hinside⟩ := walk_reached tl.unit_pos (tl.inSequence d) hk h
      intro t
      have hrest := sum_nonneg (s := Ico (d + 1) (tl.date t + 1)) fun x _ =>
        (worked_nonneg tl.unit_pos : 0 ≤ worked unit s t (tl.slots x))
      rcases lt_or_ge (tl.date t) d with hbefore | hdate
      · -- `t` has an earlier date: nothing is counted, and `T` is later
        have hlate := tl.future d t hbefore i hi
        rw [Ico_eq_empty (by omega), sum_empty]
        omega
      · rw [sum_from (by omega), ← worked_congr hcurrent]
        rcases lt_or_ge d (tl.date t) with hlater | hsame
        · have hover := tl.past d t hlater i hi
          have hcount := (hiff t).mp (by omega)
          omega
        · rw [Ico_eq_empty (a := d + 1) (by omega), sum_empty, Int.add_zero]
          exact hiff t
  | @next d current k left first T h hfirst hnext ih =>
      obtain ⟨hleft, hle, hall⟩ := walk_left tl.unit_pos hk h
      have hlater : ∀ i ∈ tl.slots (d + 1), max first i.1 = max s i.1 := by
        intro i hi
        have hstart := hfirst i hi
        have hafter := tl.future (d + 1) s (by omega) i hi
        omega
      intro t
      rw [ih hleft (by omega) hlater t]
      rcases lt_or_ge (tl.date t) d with hbefore | hdate
      · rw [Ico_eq_empty (a := d) (by omega), Ico_eq_empty (by omega), sum_empty]
        omega
      · rw [sum_from (d := d) (by omega), ← worked_congr hcurrent]
        rcases lt_or_ge d (tl.date t) with hpast | hsame
        · have hcount := hall t (tl.past d t hpast)
          omega
        · have hcount := hle t
          rw [Ico_eq_empty (a := d + 1) (by omega), sum_empty]
          omega

/-- **Walking is the lower adjoint of counting**: the instant that `k` units from `s`
    reach is at or before `t` exactly if `k` units are counted from `s` to `t`. -/
theorem reaches_iff {k T : Int} (h : tl.Reaches (tl.date s) s k T) (hk : 0 < k) (t : Int) :
    T ≤ t ↔ k ≤ tl.between s t :=
  reaches_sum h hk (Int.le_refl _) (fun _ _ => rfl) t

/-- The slots of later dates start after what an earlier one reaches. -/
theorem later_starts (hunit : 1 < unit) {d x T : Int} (hT : unit ∣ T) (hdx : d < x) {i j : Slot}
    (hi : i ∈ tl.slots d) (hend : T ≤ i.2) (hj : j ∈ tl.slots x) : T ≤ j.1 := by
  rcases lt_or_ge (tl.date (T - 1)) x with hearlier | hlater
  · have hstart := tl.future x (T - 1) hearlier j hj
    have haligned := tl.aligned x j hj
    by_contra hbefore
    have hone : T - j.1 = 1 := by omega
    -- two whole units are further apart
    have hdvd : unit ∣ 1 := hone ▸ Int.dvd_sub hT haligned
    have hle := Int.le_of_dvd Int.one_pos hdvd
    omega
  · have hover := tl.past d (T - 1) (by omega) i hi
    omega

/-- The slots of earlier dates end before what a later one reaches. -/
theorem earlier_ends {d x T : Int} (hdx : d < x) {i j : Slot} (hi : i ∈ tl.slots x) (hT : i.1 < T)
    (hj : j ∈ tl.slots d) : j.2 ≤ T := by
  rcases lt_or_ge d (tl.date T) with hlater | hearlier
  · exact tl.past d T hlater j hj
  · have hstart := tl.future x T (by omega) i hi
    omega

/-- The date of what is reached. -/
theorem le_date {d T : Int} {i : Slot} (hi : i ∈ tl.slots d) (hT : i.1 < T) : d ≤ tl.date T := by
  by_contra hearlier
  have hstart := tl.future d T (by omega) i hi
  omega

theorem reaches_dvd {d current k T : Int} (h : tl.Reaches d current k T)
    (haligned : ∀ i ∈ tl.slots d, unit ∣ max current i.1) : unit ∣ T := by
  induction h with
  | here h => exact walk_dvd haligned h
  | @next d current k left first T h hfirst hnext ih =>
      refine ih fun i hi => ?_
      rw [show max first i.1 = i.1 from max_eq_right (hfirst i hi)]
      exact tl.aligned (d + 1) i hi

/-- The slot in which a walk ends, and what is counted until there. -/
theorem reaches_count (hunit : 1 < unit) {d current k T : Int} (h : tl.Reaches d current k T)
    (hT : unit ∣ T) (hk : 0 < k) (hd : tl.date s ≤ d)
    (hcurrent : ∀ i ∈ tl.slots d, max current i.1 = max s i.1) :
    (∃ e, d ≤ e ∧ ∃ i ∈ tl.slots e, i.1 < T ∧ T ≤ i.2) ∧
      ∑ x ∈ Ico d (tl.date T + 1), worked unit s T (tl.slots x) = k := by
  induction h with
  | @here d current k T h =>
      obtain ⟨_, i, hi, hafter, hinside⟩ := walk_reached tl.unit_pos (tl.inSequence d) hk h
      refine ⟨⟨d, Int.le_refl d, i, hi, hafter, hinside⟩, ?_⟩
      have hdate := le_date hi hafter
      have hrest : ∑ x ∈ Ico (d + 1) (tl.date T + 1), worked unit s T (tl.slots x) = 0 := by
        refine sum_eq_zero fun x hx => worked_future fun j hj => ?_
        rw [mem_Ico] at hx
        exact later_starts hunit hT (by omega) hi hinside hj
      rw [sum_from (by omega), hrest, Int.add_zero, ← worked_congr hcurrent]
      exact walk_count tl.unit_pos (tl.inSequence d) hk h
  | @next d current k left first T h hfirst hnext ih =>
      obtain ⟨hleft, _, hall⟩ := walk_left tl.unit_pos hk h
      have hlater : ∀ i ∈ tl.slots (d + 1), max first i.1 = max s i.1 := by
        intro i hi
        have hstart := hfirst i hi
        have hafter := tl.future (d + 1) s (by omega) i hi
        omega
      obtain ⟨⟨e, he, i, hi, hafter, hinside⟩, hcount⟩ := ih hT hleft (by omega) hlater
      refine ⟨⟨e, by omega, i, hi, hafter, hinside⟩, ?_⟩
      have hdate := le_date hi hafter
      rw [sum_from (by omega), hcount, ← worked_congr hcurrent,
        hall T fun j hj => earlier_ends (by omega) hi hafter hj]
      omega

/-- **Exactly `k` units are counted until the instant that they reach.** -/
theorem between_reaches (hunit : 1 < unit) {k T : Int} (h : tl.Reaches (tl.date s) s k T)
    (hs : unit ∣ s) (hk : 0 < k) : tl.between s T = k := by
  have hT : unit ∣ T := reaches_dvd h fun i hi => by
    rcases max_choice s i.1 with hmax | hmax <;> rw [hmax]
    exacts [hs, tl.aligned _ i hi]
  exact (reaches_count hunit h hT hk (Int.le_refl _) fun _ _ => rfl).2

end Timeline

end Helpdesk
