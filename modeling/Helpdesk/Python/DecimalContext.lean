/-
  File:      Helpdesk/Python/DecimalContext.lean
  Subject:   The numbers of the default context of `decimal`.

  A number fits the context if 28 digits write it and none of them stands below the
  exponent -1000026; it overflows if it rounds to `10 ^ 1000000`. Both are facts about
  the number, whatever decimal denotes it.

  * `lt?_finite`: `<` compares the numbers;
  * `normalize_none_iff`: `normalize` raises exactly for the numbers that overflow;
  * `normalize_exact_iff`: otherwise it keeps exactly the numbers that fit.
-/
import Helpdesk.Python.Decimal
import Mathlib.Algebra.Order.Field.Power
import Mathlib.Tactic.FieldSimp
import Mathlib.Tactic.Linarith
import Mathlib.Tactic.Positivity
import Mathlib.Tactic.Ring

namespace Helpdesk.Python.Decimal

variable {negative : Bool} {coefficient rounded drop k : Nat} {exponent exponent' : Int}

/-! ## 1. Numbers -/

/-- The number of a finite decimal. -/
def number (negative : Bool) (coefficient : Nat) (exponent : Int) : ℚ :=
  (if negative then -(coefficient : ℚ) else coefficient) * 10 ^ exponent

/-- 28 digits write the number, the last of them no lower than the context goes. -/
def Fits (x : ℚ) : Prop :=
  ∃ (coefficient : Nat) (exponent : Int),
    coefficient < 10 ^ precision ∧ etiny ≤ exponent ∧ |x| = coefficient * 10 ^ exponent

/-- Rounded to 28 digits, the number has an exponent that the context does not have. -/
def Overflows (x : ℚ) : Prop :=
  (2 * 10 ^ precision - 1) * (10 : ℚ) ^ (emax + 1 - precision) ≤ 2 * |x|

theorem value?_finite :
    (finite negative coefficient exponent).value? = some (number negative coefficient exponent) :=
  rfl

theorem ten_zpow_pos (e : Int) : (0 : ℚ) < 10 ^ e := zpow_pos (by norm_num) e

theorem abs_number : |number negative coefficient exponent| = coefficient * 10 ^ exponent := by
  have hpos := ten_zpow_pos exponent
  have hnonneg : (0 : ℚ) ≤ coefficient := Nat.cast_nonneg _
  unfold number
  rw [abs_mul, abs_of_pos hpos]
  cases negative
  · rw [if_neg Bool.false_ne_true, abs_of_nonneg hnonneg]
  · rw [if_pos rfl, abs_neg, abs_of_nonneg hnonneg]

theorem number_zero : number negative 0 exponent = 0 := by
  cases negative <;> simp [number]

/-- A sign keeps numbers apart. -/
theorem number_inj {coefficient' : Nat} :
    number negative coefficient exponent = number negative coefficient' exponent' ↔
      (coefficient : ℚ) * 10 ^ exponent = coefficient' * 10 ^ exponent' := by
  unfold number
  cases negative
  · rfl
  · simp only [if_true, neg_mul, neg_inj]

/-- A power of ten below an exponent. -/
theorem ten_zpow_split {low e : Int} (h : low ≤ e) :
    (10 : ℚ) ^ e = ((10 ^ (e - low).toNat : Nat) : ℚ) * 10 ^ low := by
  have hnat : ((e - low).toNat : Int) = e - low := Int.toNat_of_nonneg (by omega)
  rw [Nat.cast_pow, Nat.cast_ofNat, ← zpow_natCast, hnat, ← zpow_add₀ (by norm_num)]
  congr 1
  omega

/-- **`<` between finite decimals** compares their numbers. -/
theorem lt?_finite {negative' : Bool} {coefficient' : Nat} :
    lt? (finite negative coefficient exponent) (finite negative' coefficient' exponent') =
      some (decide (number negative coefficient exponent <
        number negative' coefficient' exponent')) := by
  have hscaled : ∀ (sign : Bool) (c : Nat) {e : Int}, min exponent exponent' ≤ e →
      number sign c e =
        ((if sign then -((c * 10 ^ (e - min exponent exponent').toNat : Nat) : Int)
          else (c * 10 ^ (e - min exponent exponent').toNat : Nat) : Int) : ℚ) *
            10 ^ min exponent exponent' := by
    intro sign c e he
    unfold number
    rw [ten_zpow_split he]
    cases sign
    · simp only [Bool.false_eq_true, if_false]
      push_cast
      ring
    · simp only [if_true]
      push_cast
      ring
  have hlow := ten_zpow_pos (min exponent exponent')
  have hleft := hscaled negative coefficient (min_le_left exponent exponent')
  have hright := hscaled negative' coefficient' (min_le_right exponent exponent')
  rw [hleft, hright]
  simp only [lt?, mul_lt_mul_iff_left₀ hlow, Int.cast_lt]

/-! ## 2. Without trailing zeros -/

theorem stripZeros_number (fuel : Nat) :
    ((stripZeros fuel coefficient exponent).1 : ℚ) * 10 ^ (stripZeros fuel coefficient exponent).2 =
      coefficient * 10 ^ exponent := by
  induction fuel generalizing coefficient exponent with
  | zero => rfl
  | succ fuel ih =>
      rw [stripZeros]
      split
      · next hlast =>
          have hdigits : ((coefficient / 10 : Nat) : ℚ) * 10 = coefficient := by
            exact_mod_cast Nat.div_mul_cancel (Nat.dvd_of_mod_eq_zero hlast)
          rw [ih, zpow_add₀ (by norm_num), zpow_one, ← hdigits]
          ring
      · rfl

/-- Trailing zeros do not count. -/
theorem reduced_value :
    (reduced negative coefficient exponent).value? =
      some (number negative coefficient exponent) := by
  unfold reduced
  split
  · next hzero =>
      rw [value?_finite, hzero, number_zero, number_zero]
  · rw [value?_finite, Option.some.injEq, number_inj]
    exact stripZeros_number _

/-! ## 3. Rounding -/

theorem lt_pow_numDigits (n : Nat) : n < 10 ^ numDigits n :=
  (numDigits_le_iff (numDigits_pos n)).mp (Nat.le_refl _)

theorem pow_le_of_pos (h : 0 < coefficient) : 10 ^ (numDigits coefficient - 1) ≤ coefficient := by
  rcases Nat.eq_or_lt_of_le (Nat.succ_le_of_lt (numDigits_pos coefficient)) with hone | hmore
  · rw [← hone]
    exact h
  · have hdigits : ¬ numDigits coefficient ≤ numDigits coefficient - 1 := by omega
    rw [numDigits_le_iff (by omega)] at hdigits
    exact Nat.le_of_not_lt hdigits

/-- Nothing is rounded away if the dropped digits are zeros. -/
theorem halfEven_mul_iff (h : 0 < coefficient) :
    halfEven coefficient drop * 10 ^ drop = coefficient ↔ 10 ^ drop ∣ coefficient := by
  have hten : 0 < 10 ^ drop := Nat.pow_pos (by decide)
  constructor
  · intro heq
    exact ⟨_, by rw [Nat.mul_comm]; exact heq.symm⟩
  · intro hdvd
    have hdigits : ¬ numDigits coefficient < drop := by
      intro hlt
      have hle := Nat.le_of_dvd h hdvd
      have hpow : 10 ^ numDigits coefficient ≤ 10 ^ drop :=
        Nat.pow_le_pow_right (by decide) (Nat.le_of_lt hlt)
      exact absurd (lt_pow_numDigits coefficient) (Nat.not_lt.mpr (hpow.trans hle))
    have hrest : 2 * (coefficient % 10 ^ drop) < 10 ^ drop := by
      rw [Nat.mod_eq_zero_of_dvd hdvd]
      exact hten
    unfold halfEven
    dsimp only
    rw [if_neg hdigits, if_pos hrest]
    exact Nat.div_mul_cancel hdvd

/-- The carry of a rounding: all digits that are left are nines, and the dropped ones make
    at least one half. -/
theorem halfEven_carry (hdigits : numDigits coefficient = drop + k) (hk : 0 < k) :
    halfEven coefficient drop = 10 ^ k ↔ 2 * 10 ^ (drop + k) ≤ 2 * coefficient + 10 ^ drop := by
  have hten : 0 < 10 ^ drop := Nat.pow_pos (by decide)
  have hlt : coefficient < 10 ^ drop * 10 ^ k := by
    rw [← Nat.pow_add, ← hdigits]
    exact lt_pow_numDigits coefficient
  have hquotient : coefficient / 10 ^ drop < 10 ^ k := Nat.div_lt_of_lt_mul hlt
  have hsplit := Nat.div_add_mod coefficient (10 ^ drop)
  have hrest := Nat.mod_lt coefficient hten
  have hodd : (10 ^ k - 1) % 2 = 1 := by
    have heven : 2 ∣ 10 ^ k := Dvd.dvd.pow (by decide) (Nat.ne_of_gt hk)
    have hpos : 0 < 10 ^ k := Nat.pow_pos (by decide)
    omega
  rw [Nat.pow_add]
  unfold halfEven
  dsimp only
  rw [if_neg (by omega)]
  generalize coefficient % 10 ^ drop = rest at *
  generalize coefficient / 10 ^ drop = quotient at *
  generalize 10 ^ k = nines at *
  generalize 10 ^ drop = unit at *
  -- the quotient is the greatest of its length, or a whole unit is missing
  rcases Nat.lt_or_ge quotient (nines - 1) with hsmall | hlarge
  · have hmissing : unit * (quotient + 2) ≤ unit * nines := Nat.mul_le_mul_left _ (by omega)
    rw [Nat.mul_add] at hmissing
    constructor
    · intro hround
      split at hround
      · omega
      · split at hround
        · omega
        · omega
    · intro hhalf
      omega
  · obtain rfl : nines = quotient + 1 := by omega
    rw [Nat.add_sub_cancel] at hodd
    rw [Nat.mul_add, Nat.mul_one]
    constructor
    · intro hround
      split at hround
      · omega
      · omega
    · intro hhalf
      rw [if_neg (by omega)]
      split
      · rfl
      · omega

/-! ## 4. The greatest numbers -/

/-- The numbers of a length. -/
theorem size_bounds (h : 0 < coefficient) :
    (10 : ℚ) ^ (exponent + numDigits coefficient - 1) ≤ coefficient * 10 ^ exponent ∧
      (coefficient : ℚ) * 10 ^ exponent + 10 ^ exponent ≤
        10 ^ (exponent + numDigits coefficient) := by
  have hpos := ten_zpow_pos exponent
  have hdigits := numDigits_pos coefficient
  have hlow : ((10 ^ (numDigits coefficient - 1) : Nat) : ℚ) ≤ coefficient :=
    Nat.cast_le.mpr (pow_le_of_pos h)
  have hhigh : (coefficient : ℚ) + 1 ≤ ((10 ^ numDigits coefficient : Nat) : ℚ) := by
    exact_mod_cast Nat.succ_le_of_lt (lt_pow_numDigits coefficient)
  constructor
  · rw [ten_zpow_split (show exponent ≤ exponent + numDigits coefficient - 1 by omega)]
    have hnat : (exponent + numDigits coefficient - 1 - exponent).toNat =
        numDigits coefficient - 1 := by omega
    rw [hnat]
    exact mul_le_mul_of_nonneg_right hlow (le_of_lt hpos)
  · rw [ten_zpow_split (show exponent ≤ exponent + numDigits coefficient by omega)]
    have hnat : (exponent + numDigits coefficient - exponent).toNat = numDigits coefficient := by
      omega
    rw [hnat]
    calc (coefficient : ℚ) * 10 ^ exponent + 10 ^ exponent
        = (coefficient + 1) * 10 ^ exponent := by ring
      _ ≤ _ := mul_le_mul_of_nonneg_right hhigh (le_of_lt hpos)

/-- Twice the first number that rounds beyond the context: its greatest number, and one half
    of the last digit. -/
def ceiling : ℚ := (2 * 10 ^ precision - 1) * 10 ^ (emax + 1 - precision)

/-- A power of ten above the last digit of the ceiling. -/
theorem zpow_unit {n : Nat} {e : Int} (he : e = n + (emax + 1 - precision)) :
    (10 : ℚ) ^ e = 10 ^ n * 10 ^ (emax + 1 - precision) := by
  rw [he, zpow_add₀ (by norm_num), zpow_natCast]

theorem ceiling_le (h : 0 < coefficient) (hlarge : emax < exponent + numDigits coefficient - 1) :
    ceiling ≤ 2 * (coefficient * 10 ^ exponent) := by
  have hunit := ten_zpow_pos (emax + 1 - precision)
  have hsize : (10 : ℚ) ^ (emax + 1) ≤ coefficient * 10 ^ exponent :=
    le_trans (zpow_le_zpow_right₀ (by norm_num) (by omega)) (size_bounds h).1
  rw [zpow_unit (n := precision) (by omega)] at hsize
  unfold ceiling
  generalize (10 : ℚ) ^ (emax + 1 - precision) = unit at *
  generalize (coefficient : ℚ) * 10 ^ exponent = x at *
  linarith

theorem lt_ceiling (h : 0 < coefficient) (hsmall : exponent + numDigits coefficient - 1 < emax) :
    2 * (coefficient * 10 ^ exponent) < ceiling := by
  have hunit := ten_zpow_pos (emax + 1 - precision)
  have hpos := ten_zpow_pos exponent
  have hsize : (coefficient : ℚ) * 10 ^ exponent < 10 ^ emax := by
    have hle : (10 : ℚ) ^ (exponent + numDigits coefficient) ≤ 10 ^ emax :=
      zpow_le_zpow_right₀ (by norm_num) (by omega)
    exact lt_of_lt_of_le (lt_add_of_pos_right _ hpos) ((size_bounds h).2.trans hle)
  have hfactor : (2 : ℚ) * 10 ^ 27 < 2 * 10 ^ precision - 1 := by norm_num [precision]
  have hstep := mul_lt_mul_of_pos_right hfactor hunit
  rw [zpow_unit (e := emax) (n := 27) (by decide)] at hsize
  unfold ceiling
  generalize (10 : ℚ) ^ (emax + 1 - precision) = unit at *
  generalize (coefficient : ℚ) * 10 ^ exponent = x at *
  linarith

/-- Short numbers of the greatest length stay below the ceiling. -/
theorem lt_ceiling_of_short (hlast : exponent + numDigits coefficient - 1 = emax)
    (hshort : numDigits coefficient ≤ precision) :
    2 * (coefficient * 10 ^ exponent) < ceiling := by
  have hdigits : coefficient + 1 ≤ 10 ^ numDigits coefficient :=
    Nat.succ_le_of_lt (lt_pow_numDigits coefficient)
  have hpow : 10 ^ numDigits coefficient * 10 ^ (precision - numDigits coefficient) =
      10 ^ precision := by
    rw [← Nat.pow_add]
    congr 1
    omega
  have hone : 0 < 10 ^ (precision - numDigits coefficient) := Nat.pow_pos (by decide)
  have hnat : coefficient * 10 ^ (precision - numDigits coefficient) + 1 ≤ 10 ^ precision := by
    have hstep := Nat.mul_le_mul_right (10 ^ (precision - numDigits coefficient)) hdigits
    rw [hpow, Nat.add_mul] at hstep
    omega
  have hcast : (coefficient : ℚ) * 10 ^ (precision - numDigits coefficient) + 1 ≤ 10 ^ precision := by
    exact_mod_cast hnat
  have hunit := ten_zpow_pos (emax + 1 - precision)
  unfold ceiling
  rw [zpow_unit (n := precision - numDigits coefficient) (by omega), ← mul_assoc, ← mul_assoc]
  refine mul_lt_mul_of_pos_right ?_ hunit
  linarith

/-- Long numbers of the greatest length reach the ceiling if all digits that are kept are
    nines, and the dropped ones make at least one half. -/
theorem ceiling_le_iff (hlast : exponent + numDigits coefficient - 1 = emax)
    (hlong : numDigits coefficient = drop + precision) :
    ceiling ≤ 2 * (coefficient * 10 ^ exponent) ↔
      2 * 10 ^ (drop + precision) ≤ 2 * coefficient + 10 ^ drop := by
  have hpos := ten_zpow_pos exponent
  have hsplit : (10 : ℚ) ^ (emax + 1 - precision) = ((10 ^ drop : Nat) : ℚ) * 10 ^ exponent := by
    rw [ten_zpow_split (show exponent ≤ emax + 1 - precision by omega)]
    congr 3
    omega
  unfold ceiling
  rw [hsplit, ← mul_assoc, ← mul_assoc, mul_le_mul_iff_left₀ hpos, Nat.pow_add]
  constructor
  · intro hle
    have hcast : (2 : ℚ) * (10 ^ drop * 10 ^ precision) ≤ 2 * coefficient + 10 ^ drop := by
      push_cast at hle
      linarith
    exact_mod_cast hcast
  · intro hle
    have hcast : (2 : ℚ) * (10 ^ drop * 10 ^ precision) ≤ 2 * coefficient + 10 ^ drop := by
      exact_mod_cast hle
    push_cast
    linarith

/-! ## 5. `normalize` -/

/-- What `finalize` does with a positive coefficient, by its length and its exponent. -/
inductive Finalized (coefficient : Nat) (exponent : Int) : Option (Nat × Int) → Prop
  | tooLarge (large : emax < exponent + numDigits coefficient - 1) : Finalized coefficient exponent none
  | subnormal (small : exponent + numDigits coefficient - 1 < emin) (below : exponent < etiny) :
      Finalized coefficient exponent
        (some (halfEven coefficient (etiny - exponent).toNat, etiny))
  | rounded {drop : Nat} (long : numDigits coefficient = drop + precision) (some_ : 0 < drop)
      (upper : exponent + numDigits coefficient - 1 ≤ emax) (lower : etiny ≤ exponent + drop)
      (short : halfEven coefficient drop ≠ 10 ^ precision) :
      Finalized coefficient exponent (some (halfEven coefficient drop, exponent + drop))
  | carried {drop : Nat} (long : numDigits coefficient = drop + precision) (some_ : 0 < drop)
      (upper : exponent + numDigits coefficient - 1 < emax) (lower : etiny ≤ exponent + drop)
      (carry : halfEven coefficient drop = 10 ^ precision) :
      Finalized coefficient exponent (some (10 ^ (precision - 1), exponent + drop + 1))
  | carriedOver {drop : Nat} (long : numDigits coefficient = drop + precision) (some_ : 0 < drop)
      (last : exponent + numDigits coefficient - 1 = emax)
      (carry : halfEven coefficient drop = 10 ^ precision) : Finalized coefficient exponent none
  | kept (short : numDigits coefficient ≤ precision)
      (upper : exponent + numDigits coefficient - 1 ≤ emax) (lower : etiny ≤ exponent) :
      Finalized coefficient exponent (some (coefficient, exponent))

theorem finalized (coefficient : Nat) (exponent : Int) :
    Finalized coefficient exponent (finalize coefficient exponent) := by
  unfold finalize
  dsimp only
  split
  · next hover => exact .tooLarge hover
  next hover =>
  split
  · next hsub => exact .subnormal hsub.1 hsub.2
  next hsub =>
  have hlower : etiny ≤ exponent ∨ precision ≤ exponent + numDigits coefficient - etiny := by
    simp only [emin, etiny, precision] at hsub ⊢
    omega
  split
  · next hlong =>
    obtain ⟨drop, hdrop⟩ : ∃ drop, numDigits coefficient = drop + precision :=
      ⟨_, (Nat.sub_add_cancel (Nat.le_of_lt hlong)).symm⟩
    obtain rfl : numDigits coefficient - precision = drop := by omega
    by_cases hcarry : halfEven coefficient (numDigits coefficient - precision) = 10 ^ precision
    · rw [if_pos hcarry]
      dsimp only
      split
      · next hupper =>
        refine .carriedOver hdrop (by omega) ?_ hcarry
        simp only [emax, precision] at hover hupper hdrop ⊢
        omega
      · next hupper =>
        refine .carried hdrop (by omega) ?_ (by omega) hcarry
        simp only [emax, precision] at hupper hdrop ⊢
        omega
    · rw [if_neg hcarry]
      dsimp only
      rw [if_neg (by simp only [emax, precision] at hover hdrop ⊢; omega)]
      exact .rounded hdrop (by omega) (by omega) (by omega) hcarry
  · next hshort => exact .kept (by omega) (by omega) (by omega)

/-- **The context has no exponent for the number** exactly if it reaches the ceiling. -/
theorem finalize_none_iff (h : 0 < coefficient) :
    finalize coefficient exponent = none ↔ ceiling ≤ 2 * (coefficient * 10 ^ exponent) := by
  have hfinal := finalized coefficient exponent
  generalize finalize coefficient exponent = result at hfinal
  cases hfinal with
  | tooLarge hlarge => exact iff_of_true rfl (ceiling_le h hlarge)
  | subnormal hsmall =>
      refine iff_of_false (Option.some_ne_none _) (not_le.mpr (lt_ceiling h ?_))
      simp only [emin, emax] at hsmall ⊢
      omega
  | rounded hlong _ hupper _ hshort =>
      refine iff_of_false (Option.some_ne_none _) ?_
      rcases Int.lt_or_eq_of_le hupper with hsmall | hlast
      · exact not_le.mpr (lt_ceiling h hsmall)
      · rw [ceiling_le_iff hlast hlong, ← halfEven_carry hlong (by decide)]
        exact hshort
  | carried _ _ hupper =>
      exact iff_of_false (Option.some_ne_none _) (not_le.mpr (lt_ceiling h hupper))
  | carriedOver hlong _ hlast hcarry =>
      refine iff_of_true rfl ?_
      rw [ceiling_le_iff hlast hlong, ← halfEven_carry hlong (by decide)]
      exact hcarry
  | kept hshort hupper =>
      refine iff_of_false (Option.some_ne_none _) (not_le.mpr ?_)
      rcases Int.lt_or_eq_of_le hupper with hsmall | hlast
      · exact lt_ceiling h hsmall
      · exact lt_ceiling_of_short hlast hshort

/-- A number over a higher exponent. -/
theorem size_eq_iff {q : Nat} :
    (q : ℚ) * 10 ^ (exponent + drop) = coefficient * 10 ^ exponent ↔ q * 10 ^ drop = coefficient := by
  have hne := ne_of_gt (ten_zpow_pos exponent)
  rw [zpow_add₀ (by norm_num), zpow_natCast, mul_comm ((10 : ℚ) ^ exponent), ← mul_assoc,
    mul_left_inj' hne]
  exact_mod_cast Iff.rfl

/-- A number with digits to be dropped fits if they are zeros. -/
theorem fits_iff_dvd (hlower : etiny ≤ exponent + drop)
    (hdigits : numDigits coefficient ≤ drop + precision)
    (hneeded : ∀ (c : Nat) (e : Int), c < 10 ^ precision → etiny ≤ e →
      (coefficient : ℚ) * 10 ^ exponent = c * 10 ^ e → exponent + drop ≤ e) :
    Fits (number negative coefficient exponent) ↔ 10 ^ drop ∣ coefficient := by
  unfold Fits
  rw [abs_number]
  constructor
  · rintro ⟨c, e, hc, he, heq⟩
    have hle := hneeded c e hc he heq
    rw [ten_zpow_split hle, ← mul_assoc, ← Nat.cast_mul] at heq
    have hmul := size_eq_iff.mp heq.symm
    exact ⟨_, by rw [Nat.mul_comm]; exact hmul.symm⟩
  · rintro ⟨q, hq⟩
    have hbound : q < 10 ^ precision := by
      have hlt : 10 ^ drop * q < 10 ^ drop * 10 ^ precision := by
        rw [← hq, ← Nat.pow_add]
        exact lt_of_lt_of_le (lt_pow_numDigits coefficient) (Nat.pow_le_pow_right (by decide) hdigits)
      exact Nat.lt_of_mul_lt_mul_left hlt
    have hsame : q * 10 ^ drop = coefficient := by
      rw [Nat.mul_comm]
      exact hq.symm
    exact ⟨q, exponent + drop, hbound, hlower, (size_eq_iff.mpr hsame).symm⟩

/-- A number of 28 digits and more needs an exponent that leaves 28 of them. -/
theorem le_exponent_of_long (h : 0 < coefficient) (hlong : numDigits coefficient = drop + precision)
    {c : Nat} {e : Int} (hc : c < 10 ^ precision)
    (heq : (coefficient : ℚ) * 10 ^ exponent = c * 10 ^ e) : exponent + drop ≤ e := by
  by_contra hlt
  have hsize : (10 : ℚ) ^ (exponent + numDigits coefficient - 1) ≤ coefficient * 10 ^ exponent :=
    (size_bounds h).1
  have hle : (10 : ℚ) ^ (e + precision) ≤ 10 ^ (exponent + numDigits coefficient - 1) :=
    zpow_le_zpow_right₀ (by norm_num) (by omega)
  have hsmall : (c : ℚ) * 10 ^ e < 10 ^ (e + precision) := by
    rw [zpow_add₀ (by norm_num), zpow_natCast, mul_comm]
    refine mul_lt_mul_of_pos_left ?_ (ten_zpow_pos e)
    exact_mod_cast hc
  rw [heq] at hsize
  exact absurd (hle.trans hsize) (not_le.mpr hsmall)

/-- **The context keeps the number** exactly if it fits. -/
theorem finalize_exact_iff (h : 0 < coefficient)
    (hfinal : finalize coefficient exponent = some (rounded, exponent')) :
    (rounded : ℚ) * 10 ^ exponent' = coefficient * 10 ^ exponent ↔
      Fits (number negative coefficient exponent) := by
  have hcases := finalized coefficient exponent
  rw [hfinal] at hcases
  cases hcases with
  | subnormal hsmall hbelow =>
      obtain ⟨drop, hdrop⟩ : ∃ drop : Nat, etiny = exponent + drop :=
        ⟨(etiny - exponent).toNat, by omega⟩
      have hnat : (etiny - exponent).toNat = drop := by omega
      have hdigits : numDigits coefficient ≤ drop + precision := by
        simp only [emin, etiny, precision] at hsmall hdrop ⊢
        omega
      rw [hnat, fits_iff_dvd (Int.le_of_eq hdrop) hdigits fun c e _ he _ => hdrop ▸ he,
        ← halfEven_mul_iff h, hdrop, size_eq_iff]
  | rounded hlong _ _ hlower _ =>
      rw [fits_iff_dvd hlower (Nat.le_of_eq hlong)
        fun c e hc _ heq => le_exponent_of_long h hlong hc heq, ← halfEven_mul_iff h, size_eq_iff]
  | @carried drop hlong _ _ hlower hcarry =>
      have hvalue : ((10 ^ (precision - 1) : Nat) : ℚ) * 10 ^ (exponent + drop + 1) =
          ((10 ^ precision : Nat) : ℚ) * 10 ^ (exponent + drop) := by
        rw [zpow_add₀ (by norm_num), zpow_one]
        generalize (10 : ℚ) ^ (exponent + drop) = unit
        push_cast
        norm_num [precision]
        ring
      rw [hvalue, fits_iff_dvd hlower (Nat.le_of_eq hlong)
        fun c e hc _ heq => le_exponent_of_long h hlong hc heq, ← halfEven_mul_iff h, hcarry,
        size_eq_iff]
  | kept hshort _ hlower =>
      refine iff_of_true rfl ⟨coefficient, exponent, ?_, hlower, abs_number⟩
      exact (numDigits_le_iff (by decide)).mp hshort

/-- **`normalize` raises** exactly for a number that overflows. -/
theorem normalize_none_iff :
    normalize (finite negative coefficient exponent) = none ↔
      Overflows (number negative coefficient exponent) := by
  have hceiling : Overflows (number negative coefficient exponent) ↔
      ceiling ≤ 2 * (coefficient * 10 ^ exponent) := by
    rw [Overflows, abs_number]
    exact Iff.rfl
  rw [hceiling, normalize]
  split
  · next hzero =>
      have hpos : (0 : ℚ) < ceiling :=
        mul_pos (by norm_num [precision]) (ten_zpow_pos _)
      refine iff_of_false (Option.some_ne_none _) (not_le.mpr ?_)
      rw [hzero, Nat.cast_zero, zero_mul, mul_zero]
      exact hpos
  · next hne =>
      rw [Option.map_eq_none_iff]
      exact finalize_none_iff (Nat.pos_of_ne_zero hne)

/-- **`normalize` keeps the number** exactly if it fits. -/
theorem normalize_exact_iff {d : Decimal}
    (hnormal : normalize (finite negative coefficient exponent) = some d) :
    d.value? = some (number negative coefficient exponent) ↔
      Fits (number negative coefficient exponent) := by
  rw [normalize] at hnormal
  split at hnormal
  · next hzero =>
      obtain rfl := Option.some.inj hnormal
      rw [value?_finite, hzero, number_zero, number_zero]
      refine iff_of_true rfl ⟨0, 0, Nat.pow_pos (by decide), by decide, ?_⟩
      rw [abs_zero, Nat.cast_zero, zero_mul]
  · next hne =>
      obtain ⟨⟨rounded, exponent'⟩, hfinal, rfl⟩ := Option.map_eq_some_iff.mp hnormal
      rw [reduced_value, Option.some.injEq, number_inj]
      exact finalize_exact_iff (Nat.pos_of_ne_zero hne) hfinal

end Helpdesk.Python.Decimal
