/-
  File:      Helpdesk/Python/Arithmetic.lean
  Subject:   Arithmetic and comparison of Python's floats (IEEE binary64, rounding
             to nearest, ties to even).

  Division by zero raises (`none`), as does an integer too large for a float;
  every other operation yields a float, NaN where IEEE says so. A comparison with
  NaN is false.

  * `NonNegative` floats are closed under the sums, products and quotients in
    which no NaN can arise;
  * `value_ofRat`: a number of moderate size rounds to a finite float near it.
-/
import Helpdesk.Python.Float
import Mathlib.Data.Prod.Lex
import Mathlib.Data.Rat.Lemmas
import Mathlib.Algebra.Order.Field.Power
import Mathlib.Tactic.Positivity
import Mathlib.Tactic.FieldSimp
import Mathlib.Tactic.Linarith

namespace Helpdesk.Python.PyFloat

/-! ## 1. The operations -/

def zero : PyFloat := finite 0 0

def isNegative : PyFloat → Bool
  | finite m _ => m < 0
  | negZero => true
  | inf negative => negative
  | nan => false

def isZero : PyFloat → Bool
  | finite m _ => m = 0
  | negZero => true
  | _ => false

/-- Zero with the sign of a product or a quotient. -/
def signedZero (negative : Bool) : PyFloat := if negative then negZero else zero

def neg : PyFloat → PyFloat
  | finite m e => if m = 0 then negZero else finite (-m) e
  | negZero => zero
  | inf negative => inf (!negative)
  | nan => nan

def add : PyFloat → PyFloat → PyFloat
  | nan, _ => nan
  | _, nan => nan
  | inf a, inf b => if a = b then inf a else nan
  | inf a, _ => inf a
  | _, inf b => inf b
  | negZero, negZero => negZero
  | negZero, finite m e => ofRat (m * (2 : ℚ) ^ e)
  | finite m e, negZero => ofRat (m * (2 : ℚ) ^ e)
  | finite m e, finite m' e' => ofRat (m * (2 : ℚ) ^ e + m' * (2 : ℚ) ^ e')

def sub (x y : PyFloat) : PyFloat := add x (neg y)

def mul (x y : PyFloat) : PyFloat :=
  match x.value?, y.value? with
  | some a, some b => if a * b = 0 then signedZero (x.isNegative != y.isNegative) else ofRat (a * b)
  | _, _ =>
      if x = nan ∨ y = nan ∨ x.isZero ∨ y.isZero then nan
      else inf (x.isNegative != y.isNegative)

/-- `x / y`; `none` is the `ZeroDivisionError`. -/
def div? (x y : PyFloat) : Option PyFloat :=
  if y.isZero then none
  else some (match x.value?, y.value? with
    | some a, some b =>
        if a = 0 then signedZero (x.isNegative != y.isNegative) else ofRat (a / b)
    | some _, none => if y = nan then nan else signedZero (x.isNegative != y.isNegative)
    | none, some _ => if x = nan then nan else inf (x.isNegative != y.isNegative)
    | none, none => nan)

/-- An integer as the operand of a float operation; `none` is the `OverflowError`. -/
def ofInt? (n : Int) : Option PyFloat :=
  match ofRat n with
  | inf _ => none
  | x => some x

/-! ## 2. Comparison -/

/-- Where a float stands in the order of the floats; NaN stands nowhere. -/
def order? : PyFloat → Option (Int ×ₗ ℚ)
  | finite m e => some (toLex (0, m * (2 : ℚ) ^ e))
  | negZero => some (toLex (0, 0))
  | inf negative => some (toLex (if negative then -1 else 1, 0))
  | nan => none

/-- A comparison, false when NaN takes part. -/
def compare (p : Int ×ₗ ℚ → Int ×ₗ ℚ → Bool) (x y : PyFloat) : Bool :=
  match x.order?, y.order? with
  | some a, some b => p a b
  | _, _ => false

/-- `x < y` -/
def lt : PyFloat → PyFloat → Bool := compare fun a b => a < b

/-- `x <= y` -/
def le : PyFloat → PyFloat → Bool := compare fun a b => a ≤ b

/-- `x == y` -/
def eq : PyFloat → PyFloat → Bool := compare fun a b => a = b

example : add (finite 1 (-1)) (finite 1 (-2)) = finite (3 * 2 ^ 51) (-53) := by decide +kernel
example : div? (finite 1 0) (finite 0 3) = none := rfl

/-! ## 3. What is not negative -/

def NonNegative (x : PyFloat) : Prop := le zero x = true

instance : DecidablePred NonNegative := fun x => inferInstanceAs (Decidable (le zero x = true))

def Finite (x : PyFloat) : Prop := x.value?.isSome = true

theorem nonNegative_iff {x : PyFloat} :
    x.NonNegative ↔ (∃ m e, x = finite m e ∧ 0 ≤ m) ∨ x = negZero ∨ x = inf false := by
  cases x with
  | finite m e =>
      have hpos : (0 : ℚ) < 2 ^ e := by positivity
      have hcast : (0 : ℚ) ≤ m * 2 ^ e ↔ 0 ≤ m := by
        rw [mul_nonneg_iff_of_pos_right hpos, Int.cast_nonneg_iff]
      simp [NonNegative, le, compare, order?, zero, Prod.Lex.toLex_le_toLex, hcast]
  | negZero => simp [NonNegative, le, compare, order?, zero]
  | inf negative =>
      cases negative <;> simp [NonNegative, le, compare, order?, zero, Prod.Lex.toLex_le_toLex]
  | nan => simp [NonNegative, le, compare, order?]

/-- The value of a finite float that is not negative. -/
theorem NonNegative.value {x : PyFloat} {a : ℚ} (h : x.NonNegative) (ha : x.value? = some a) :
    0 ≤ a := by
  rcases nonNegative_iff.mp h with ⟨m, e, rfl, hm⟩ | rfl | rfl
  · obtain rfl := Option.some.inj ha
    have hcast : (0 : ℚ) ≤ m := Int.cast_nonneg_iff.mpr hm
    positivity
  · exact (Option.some.inj ha).le
  · exact absurd ha (by simp [value?])

theorem floor_le_roundHalfEven (x : ℚ) : x.floor ≤ roundHalfEven x := by
  unfold roundHalfEven
  dsimp only
  split_ifs <;> omega

theorem roundHalfEven_le (x : ℚ) : roundHalfEven x ≤ x.floor + 1 := by
  unfold roundHalfEven
  dsimp only
  split_ifs <;> omega

theorem nonNegative_ofRat {x : ℚ} (h : 0 ≤ x) : (ofRat x).NonNegative := by
  have hround : 0 ≤ roundHalfEven (|x| / 2 ^ max (floorLog 2 |x| - 52) (-1074)) := by
    have hfloor : 0 ≤ (|x| / (2 : ℚ) ^ max (floorLog 2 |x| - 52) (-1074)).floor :=
      Rat.le_floor_iff.mpr (by simpa using by positivity)
    exact hfloor.trans (floor_le_roundHalfEven _)
  unfold ofRat
  dsimp only
  rw [nonNegative_iff]
  have hneg : ¬ x < 0 := not_lt.mpr h
  split_ifs
  · exact .inl ⟨0, 0, rfl, le_refl _⟩
  · exact .inr (.inr (by simp [hneg]))
  · exact .inl ⟨0, 0, rfl, le_refl _⟩
  · exact .inl ⟨_, _, rfl, hround⟩

theorem nonNegative_signedZero (negative : Bool) : (signedZero negative).NonNegative := by
  cases negative <;> decide +kernel

theorem NonNegative.isNegative {x : PyFloat} (h : x.NonNegative) (hzero : x.isZero = false) :
    x.isNegative = false := by
  rcases nonNegative_iff.mp h with ⟨m, e, rfl, hm⟩ | rfl | rfl
  · simpa [PyFloat.isNegative] using hm
  · exact absurd hzero (by decide)
  · rfl

/-- **Sums.** -/
theorem NonNegative.add {x y : PyFloat} (hx : x.NonNegative) (hy : y.NonNegative) :
    (x.add y).NonNegative := by
  have hval : ∀ {m e : Int}, 0 ≤ m → (0 : ℚ) ≤ m * 2 ^ e := by
    intro m e hm
    have hcast : (0 : ℚ) ≤ m := Int.cast_nonneg_iff.mpr hm
    positivity
  have hinf : (inf false).NonNegative := nonNegative_iff.mpr (.inr (.inr rfl))
  rcases nonNegative_iff.mp hx with ⟨m, e, rfl, hm⟩ | rfl | rfl <;>
    rcases nonNegative_iff.mp hy with ⟨m', e', rfl, hm'⟩ | rfl | rfl
  · exact nonNegative_ofRat (add_nonneg (hval hm) (hval hm'))
  · exact nonNegative_ofRat (hval hm)
  · exact hinf
  · exact nonNegative_ofRat (hval hm')
  · exact hx
  all_goals exact hinf

/-- **Products** of finite floats. -/
theorem NonNegative.mul {x y : PyFloat} (hx : x.NonNegative) (hy : y.NonNegative)
    (hfx : x.Finite) (hfy : y.Finite) : (x.mul y).NonNegative := by
  obtain ⟨a, ha⟩ := Option.isSome_iff_exists.mp hfx
  obtain ⟨b, hb⟩ := Option.isSome_iff_exists.mp hfy
  unfold PyFloat.mul
  rw [ha, hb]
  dsimp only
  split_ifs
  · exact nonNegative_signedZero _
  · exact nonNegative_ofRat (mul_nonneg (hx.value ha) (hy.value hb))

/-- **Quotients** by a finite float. -/
theorem NonNegative.div {x y z : PyFloat} (hx : x.NonNegative) (hy : y.NonNegative)
    (hfy : y.Finite) (h : x.div? y = some z) : z.NonNegative := by
  obtain ⟨b, hb⟩ := Option.isSome_iff_exists.mp hfy
  have hzero : y.isZero = false := by
    by_contra hne
    rw [div?, if_pos (Bool.not_eq_false _ ▸ hne)] at h
    cases h
  rw [div?, if_neg (by rw [hzero]; decide), hb] at h
  have hz := (Option.some.inj h).symm
  have hvalue : ∀ a, x.value? = some a → z.NonNegative := by
    intro a ha
    rw [hz, ha]
    dsimp only
    split_ifs
    · exact nonNegative_signedZero _
    · exact nonNegative_ofRat (div_nonneg (hx.value ha) (hy.value hb))
  rcases nonNegative_iff.mp hx with ⟨m, e, rfl, -⟩ | rfl | rfl
  · exact hvalue _ rfl
  · exact hvalue _ rfl
  · rw [hz, show (inf false).value? = none from rfl]
    dsimp only
    rw [if_neg (by decide), hy.isNegative hzero]
    exact nonNegative_iff.mpr (.inr (.inr rfl))

/-! ## 4. What stays finite -/

theorem floorLog_le {x : ℚ} (hx : 0 < x) : (2 : ℚ) ^ floorLog 2 x ≤ x := by
  unfold floorLog
  dsimp only
  split_ifs with hle
  · exact hle
  · have hnum : (0 : Int) < x.num := Rat.num_pos.mpr hx
    have hlow : 2 ^ Nat.log 2 x.num.toNat ≤ x.num.toNat := Nat.pow_log_le_self 2 (by omega)
    have hden : x.den < 2 ^ (Nat.log 2 x.den + 1) := Nat.lt_pow_succ_log_self (by decide) x.den
    have hlow' : (2 : ℚ) ^ Nat.log 2 x.num.toNat ≤ x.num := by
      have hcast : ((x.num.toNat : Int) : ℚ) = x.num := by rw [Int.toNat_of_nonneg hnum.le]
      rw [← hcast]
      exact_mod_cast hlow
    have hden' : (x.den : ℚ) ≤ 2 ^ (Nat.log 2 x.den + 1) := by exact_mod_cast hden.le
    have hpos : (0 : ℚ) < x.den := by exact_mod_cast x.den_pos
    calc (2 : ℚ) ^ ((Nat.log 2 x.num.toNat : Int) - Nat.log 2 x.den - 1)
        = 2 ^ Nat.log 2 x.num.toNat / 2 ^ (Nat.log 2 x.den + 1) := by
          rw [sub_sub, zpow_sub₀ (by norm_num)]
          norm_cast
      _ ≤ x.num / x.den := div_le_div₀ (by exact_mod_cast hnum.le) hlow' hpos hden'
      _ = x := Rat.num_div_den x

/-- The last place of the float nearest to `x`. -/
theorem place_le {x : ℚ} (hx : 0 < x) :
    (2 : ℚ) ^ max (floorLog 2 x - 52) (-1074) ≤ x / 2 + 1 / 4 := by
  rcases max_choice (floorLog 2 x - 52) (-1074) with hmax | hmax
  · rw [hmax]
    have hlog := floorLog_le hx
    have hstep : (2 : ℚ) ^ (floorLog 2 x - 52) ≤ 2 ^ (floorLog 2 x - 1) :=
      zpow_le_zpow_right₀ (by norm_num) (by omega)
    have hhalf : (2 : ℚ) ^ (floorLog 2 x - 1) = 2 ^ floorLog 2 x / 2 := by
      rw [zpow_sub₀ (by norm_num), zpow_one]
    linarith
  · rw [hmax]
    have hsmall : (2 : ℚ) ^ (-1074 : Int) ≤ 2 ^ (-2 : Int) :=
      zpow_le_zpow_right₀ (by norm_num) (by norm_num)
    have hquarter : (2 : ℚ) ^ (-2 : Int) = 1 / 4 := by norm_num
    have hsum : (1 / 4 : ℚ) ≤ x / 2 + 1 / 4 := by linarith
    exact (hsmall.trans hquarter.le).trans hsum

theorem sub_one_le_roundHalfEven (x : ℚ) : x - 1 ≤ roundHalfEven x := by
  have hfloor : x < (x.floor : ℚ) + 1 := by exact_mod_cast Rat.lt_floor_add_one x
  have hround : (x.floor : ℚ) ≤ roundHalfEven x := by exact_mod_cast floor_le_roundHalfEven x
  linarith

theorem roundHalfEven_le_add_one (x : ℚ) : (roundHalfEven x : ℚ) ≤ x + 1 := by
  have hfloor : (x.floor : ℚ) ≤ x := Rat.floor_le x
  have hround : (roundHalfEven x : ℚ) ≤ x.floor + 1 := by exact_mod_cast roundHalfEven_le x
  linarith

/-- **A number of moderate size rounds to a finite float near it.** -/
theorem value_ofRat {x : ℚ} (hx : 0 ≤ x) (h : x ≤ 2 ^ 100) :
    ∃ a, (ofRat x).value? = some a ∧ x / 2 - 1 / 4 ≤ a ∧ a ≤ 2 * x + 1 := by
  unfold ofRat
  by_cases hzero : x = 0
  · rw [if_pos hzero]
    exact ⟨_, rfl, by rw [hzero]; norm_num, by rw [hzero]; norm_num⟩
  · have hpos : 0 < x := lt_of_le_of_ne hx (Ne.symm hzero)
    have hplace := place_le hpos
    rw [if_neg hzero, abs_of_pos hpos]
    dsimp only
    generalize max (floorLog 2 x - 52) (-1074) = e at hplace ⊢
    have hpow : (0 : ℚ) < 2 ^ e := by positivity
    have hcancel : x / 2 ^ e * 2 ^ e = x := div_mul_cancel₀ x hpow.ne'
    have hup : (roundHalfEven (x / 2 ^ e) : ℚ) * 2 ^ e ≤ x + 2 ^ e := by
      calc (roundHalfEven (x / 2 ^ e) : ℚ) * 2 ^ e ≤ (x / 2 ^ e + 1) * 2 ^ e :=
            mul_le_mul_of_nonneg_right (roundHalfEven_le_add_one _) hpow.le
        _ = x + 2 ^ e := by rw [add_mul, hcancel, one_mul]
    have hlow : x - 2 ^ e ≤ (roundHalfEven (x / 2 ^ e) : ℚ) * 2 ^ e := by
      calc x - (2 : ℚ) ^ e = (x / 2 ^ e - 1) * 2 ^ e := by rw [sub_mul, hcancel, one_mul]
        _ ≤ _ := mul_le_mul_of_nonneg_right (sub_one_le_roundHalfEven _) hpow.le
    have hsmall : ¬ (2 : ℚ) ^ (1024 : Int) ≤ roundHalfEven (x / 2 ^ e) * 2 ^ e := by
      have hsum : x + (2 : ℚ) ^ e ≤ 2 ^ 102 := by linarith
      have hbig : (2 : ℚ) ^ 102 < 2 ^ (1024 : Int) := by
        calc (2 : ℚ) ^ 102 < 2 ^ 1024 := pow_lt_pow_right₀ (by norm_num) (by norm_num)
          _ = 2 ^ (1024 : Int) := (zpow_natCast 2 1024).symm
      exact not_le.mpr ((hup.trans hsum).trans_lt hbig)
    have hneg : ¬ x < 0 := not_lt.mpr hx
    rw [if_neg hsmall, if_neg hneg, if_neg hneg]
    split_ifs with hm
    · rw [hm, Int.cast_zero, zero_mul] at hup hlow
      exact ⟨0, by simp [value?], by linarith, by linarith⟩
    · exact ⟨_, rfl, by linarith, by linarith⟩

theorem finite_signedZero (negative : Bool) : (signedZero negative).Finite := by
  cases negative <;> rfl

/-- A quotient of moderate size. -/
theorem finite_div {x y z : PyFloat} {a b : ℚ} (ha : x.value? = some a) (hb : y.value? = some b)
    (hnonneg : 0 ≤ a / b) (hle : a / b ≤ 2 ^ 100) (h : x.div? y = some z) : z.Finite := by
  have hzero : ¬ y.isZero = true := by
    intro hzero
    rw [div?, if_pos hzero] at h
    cases h
  rw [div?, if_neg hzero, ha, hb] at h
  rw [← Option.some.inj h]
  dsimp only
  split_ifs
  · exact finite_signedZero _
  · obtain ⟨c, hc, -⟩ := value_ofRat hnonneg hle
    exact Option.isSome_iff_exists.mpr ⟨c, hc⟩

theorem ofRat_ne_nan (x : ℚ) : ofRat x ≠ nan := by
  unfold ofRat
  dsimp only
  split_ifs <;> exact fun h => nomatch h

/-- An integer operand is finite. -/
theorem finite_ofInt? {n : Int} {x : PyFloat} (h : ofInt? n = some x) : x.Finite := by
  unfold ofInt? at h
  have hnan := ofRat_ne_nan n
  split at h
  · cases h
  · rename_i hinf
    obtain rfl := Option.some.inj h
    cases hof : ofRat n with
    | finite m e => rfl
    | negZero => rfl
    | inf negative => exact absurd hof (hinf negative)
    | nan => exact absurd hof hnan

/-- An integer operand is near the integer. -/
theorem value_ofInt? {n : Int} {x : PyFloat} (hn : 0 ≤ n) (hle : (n : ℚ) ≤ 2 ^ 100)
    (h : ofInt? n = some x) :
    ∃ a, x.value? = some a ∧ (n : ℚ) / 2 - 1 / 4 ≤ a := by
  obtain ⟨a, ha, hlow, -⟩ := value_ofRat (Int.cast_nonneg_iff.mpr hn) hle
  unfold ofInt? at h
  split at h
  · cases h
  · exact ⟨a, by rwa [← Option.some.inj h], hlow⟩

theorem nonNegative_ofInt? {n : Int} {x : PyFloat} (hn : 0 ≤ n) (h : ofInt? n = some x) :
    x.NonNegative := by
  have hcast : (0 : ℚ) ≤ n := Int.cast_nonneg_iff.mpr hn
  unfold ofInt? at h
  split at h
  · cases h
  · exact Option.some.inj h ▸ nonNegative_ofRat hcast

end Helpdesk.Python.PyFloat
