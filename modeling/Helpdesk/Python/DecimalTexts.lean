/-
  File:      Helpdesk/Python/DecimalTexts.lean
  Subject:   `Decimal(str(value))` of an int and of a float.

  The text of a number is a numeral: `decimal` reads it, and reads a NaN from nothing but
  the text of a NaN.

  * `decimal?_int`: the text of an int of a bounded length;
  * `decimal?_repr`: the `repr` of a binary64 float other than NaN.
-/
import Helpdesk.Python.DecimalContext
import Helpdesk.Python.Json
import Mathlib.Data.Nat.Log

namespace Helpdesk.Python

open Decimal

/-! ## 1. Ints -/

theorem ofList_toDigits (n : Nat) : String.ofList (Nat.toDigits 10 n) = toString n := rfl

/-- The text of an int is its sign and its digits. -/
theorem toString_int (n : Int) :
    toString n =
      String.ofList ((if decide (n < 0) then ['-'] else []) ++ Nat.toDigits 10 n.natAbs) := by
  cases n with
  | ofNat m =>
      have hsign : decide (Int.ofNat m < 0) = false := by
        rw [decide_eq_false_iff_not]
        exact Int.not_lt.mpr (Int.natCast_nonneg m)
      rw [hsign]
      rfl
  | negSucc m =>
      have hsign : decide (Int.negSucc m < 0) = true := decide_eq_true (Int.negSucc_lt_zero m)
      rw [hsign, if_pos rfl, String.ofList_append]
      rfl

/-- **The text of an int** denotes it. -/
theorem decimal?_int {n : Int} (h : numDigits n.natAbs ≤ 1000000000000000000) :
    decimal? (toString n) = some (finite (decide (n < 0)) n.natAbs 0) := by
  rw [toString_int]
  have hdigits : ∀ c ∈ Nat.toDigits 10 n.natAbs, c.isDigit = true := fun _ => isDigit_toDigits
  refine decimal?_signed (fun c hc => plain_of_isDigit (hdigits c hc)) ?_ ?_ ?_
  · obtain ⟨c, rest, htext⟩ :=
      List.exists_cons_of_ne_nil (Nat.toDigits_ne_nil (n := n.natAbs) (b := 10))
    exact ⟨c, rest, htext, hdigits c (htext ▸ List.mem_cons_self)⟩
  · have hnone : ∀ c ∈ ([] : List Char), c.isDigit = true := fun _ h => nomatch h
    have hparts := number?_parts .none (Nat.toDigits_ne_nil (n := n.natAbs) (b := 10)) hdigits hnone
    simpa [digitsValue_toDigits] using hparts
  · unfold exact
    omega

/-! ## 2. Floats -/

namespace PyFloat

/-- A float of binary64. -/
def IsDouble : PyFloat → Prop
  | finite m e => |m| < 2 ^ 53 ∧ -1074 ≤ e ∧ e ≤ 971
  | _ => True

theorem lt_zpow_log {base : Nat} (hbase : 1 < base) {n : Nat} (hn : 0 < n) :
    (base : ℚ) ^ (Nat.log base n : Int) ≤ n ∧ (n : ℚ) < base ^ ((Nat.log base n : Int) + 1) := by
  constructor
  · rw [zpow_natCast]
    exact_mod_cast Nat.pow_log_le_self base (Nat.ne_of_gt hn)
  · have hlt := Nat.lt_pow_succ_log_self hbase n
    have hcast : (n : ℚ) < (base : ℚ) ^ (Nat.log base n + 1) := by exact_mod_cast hlt
    rw [← zpow_natCast] at hcast
    exact_mod_cast hcast

/-- **`floorLog` is the logarithm.** -/
theorem floorLog_spec {base : Nat} (hbase : 1 < base) {x : ℚ} (hx : 0 < x) :
    (base : ℚ) ^ floorLog base x ≤ x ∧ x < (base : ℚ) ^ (floorLog base x + 1) := by
  have hb : (0 : ℚ) < base := by exact_mod_cast Nat.lt_trans Nat.zero_lt_one hbase
  have hnum : 0 < x.num := Rat.num_pos.mpr hx
  have hnat : ((x.num.toNat : Nat) : ℚ) = x.num := by
    exact_mod_cast congrArg (Int.cast (R := ℚ)) (Int.toNat_of_nonneg (Int.le_of_lt hnum))
  have hden : (0 : ℚ) < x.den := by exact_mod_cast x.den_pos
  have hsplit : x * x.den = x.num := Rat.mul_den_eq_num x
  obtain ⟨hnumLow, hnumHigh⟩ := lt_zpow_log hbase (n := x.num.toNat) (by omega)
  obtain ⟨hdenLow, hdenHigh⟩ := lt_zpow_log hbase x.den_pos
  rw [hnat, ← hsplit] at hnumLow hnumHigh
  unfold floorLog
  dsimp only
  generalize (Nat.log base x.num.toNat : Int) = p at *
  generalize (Nat.log base x.den : Int) = q at *
  have hq := zpow_pos hb q
  -- between the two powers the quotient of the logarithms leaves open
  have hhigh : x < (base : ℚ) ^ (p - q + 1) := by
    have hpow : (base : ℚ) ^ (p + 1) = base ^ (p - q + 1) * base ^ q := by
      rw [← zpow_add₀ (ne_of_gt hb)]
      congr 1
      omega
    rw [hpow] at hnumHigh
    have hle : x * base ^ q ≤ x * x.den := mul_le_mul_of_nonneg_left hdenLow (le_of_lt hx)
    exact lt_of_mul_lt_mul_right (lt_of_le_of_lt hle hnumHigh) (le_of_lt hq)
  have hlow : (base : ℚ) ^ (p - q - 1) ≤ x := by
    have hpow : (base : ℚ) ^ p = base ^ (p - q - 1) * base ^ (q + 1) := by
      rw [← zpow_add₀ (ne_of_gt hb)]
      congr 1
      omega
    rw [hpow] at hnumLow
    have hle : x * x.den ≤ x * base ^ (q + 1) :=
      mul_le_mul_of_nonneg_left (le_of_lt hdenHigh) (le_of_lt hx)
    exact le_of_mul_le_mul_right (le_trans hnumLow hle) (zpow_pos hb _)
  split
  · next hle => exact ⟨hle, hhigh⟩
  · next hlt =>
      refine ⟨hlow, ?_⟩
      rw [Int.sub_add_cancel]
      exact not_le.mp hlt

end PyFloat

/-! ## 3. The layout of `repr` -/

/-- A value of so many digits is no longer. -/
theorem numDigits_digitsValue_le {digits : List Char} (hne : digits ≠ [])
    (hdigits : ∀ c ∈ digits, c.isDigit = true) : numDigits (digitsValue digits) ≤ digits.length := by
  have hlt : ∀ {digits : List Char}, (∀ c ∈ digits, c.isDigit = true) →
      digitsValue digits < 10 ^ digits.length := by
    intro digits
    induction digits with
    | nil => exact fun _ => Nat.one_pos
    | cons c digits ih =>
        intro hall
        obtain ⟨hc, hrest⟩ := List.forall_mem_cons.mp hall
        obtain ⟨d, hd, rfl⟩ := digitChar_of_isDigit hc
        have hvalue : digitsValue (Nat.digitChar d :: digits) =
            10 ^ digits.length * d + digitsValue digits := by
          rw [digitsValue, Nat.ofDigitChars_cons_digitChar_of_lt_ten hd,
            Nat.ofDigitChars_eq_ofDigitChars_zero, Nat.mul_zero, Nat.zero_add]
          rfl
        have hstep : 10 ^ digits.length * d ≤ 10 ^ digits.length * 9 :=
          Nat.mul_le_mul_left _ (by omega)
        have htail := ih hrest
        rw [hvalue, List.length_cons, Nat.pow_succ]
        omega
  exact (numDigits_le_iff (List.length_pos_of_ne_nil hne)).mpr (hlt hdigits)

/-- A numeral without a sign: digits, perhaps a point and digits, perhaps an exponent. -/
structure Numeral (text : List Char) (length : Nat) : Prop where
  plain : ∀ c ∈ text, Plain c
  head : ∃ c rest, text = c :: rest ∧ c.isDigit = true
  reads : ∃ coefficient exponent, number? text = some (coefficient, exponent) ∧
    numDigits coefficient ≤ length ∧ exponent.natAbs ≤ length

theorem numeral_of_parts {whole part tail : List Char} {k : Int} {length : Nat}
    (htail : ExponentText tail k) (hplain : ∀ c ∈ tail, Plain c) (hne : whole ≠ [])
    (hwhole : ∀ c ∈ whole, c.isDigit = true) (hpart : ∀ c ∈ part, c.isDigit = true)
    (hlength : whole.length + part.length + k.natAbs ≤ length) :
    Numeral (whole ++ (if part = [] then [] else '.' :: part) ++ tail) length where
  plain c hc := by
    rcases List.mem_append.mp hc with hbody | hmem
    · rcases List.mem_append.mp hbody with hdigit | hfraction
      · exact plain_of_isDigit (hwhole c hdigit)
      · by_cases hempty : part = []
        · simp [hempty] at hfraction
        · rcases List.mem_cons.mp (by simpa [hempty] using hfraction) with rfl | hdigit
          · exact plain_of_mem (by simp)
          · exact plain_of_isDigit (hpart c hdigit)
    · exact hplain c hmem
  head := by
    obtain ⟨c, rest, rfl⟩ := List.exists_cons_of_ne_nil hne
    exact ⟨c, _, rfl, hwhole c List.mem_cons_self⟩
  reads := by
    refine ⟨_, _, number?_parts htail hne hwhole hpart, ?_, by omega⟩
    have hdigits : ∀ c ∈ whole ++ part, c.isDigit = true := by
      intro c hc
      rcases List.mem_append.mp hc with hmem | hmem
      · exact hwhole c hmem
      · exact hpart c hmem
    have hle := numDigits_digitsValue_le (List.append_ne_nil_of_left_ne_nil hne part) hdigits
    rw [List.length_append] at hle
    omega

/-- A numeral with a point and no exponent. -/
theorem numeral_pointed {whole part : List Char} {length : Nat} (hne : whole ≠ [])
    (hmore : part ≠ []) (hwhole : ∀ c ∈ whole, c.isDigit = true)
    (hpart : ∀ c ∈ part, c.isDigit = true) (hlength : whole.length + part.length ≤ length) :
    Numeral (whole ++ '.' :: part) length := by
  have hparts := numeral_of_parts .none (fun _ h => nomatch h) hne hwhole hpart hlength
  rwa [if_neg hmore, List.append_nil] at hparts

/-- An exponent of at least two digits. -/
theorem exponentText_padded (e : Int) :
    ∃ tail, ExponentText tail e ∧ (∀ c ∈ tail, Plain c) ∧
      ("e" ++ (if e < 0 then "-" else "+") ++
        (if (toString e.natAbs).length < 2 then "0" ++ toString e.natAbs
          else toString e.natAbs)).toList = tail := by
  obtain ⟨zeros, hzeros⟩ : ∃ k, (if (toString e.natAbs).length < 2 then "0" ++ toString e.natAbs
      else toString e.natAbs).toList = List.replicate k '0' ++ Nat.toDigits 10 e.natAbs := by
    have htext : (toString e.natAbs).toList = Nat.toDigits 10 e.natAbs := String.toList_ofList
    split
    · refine ⟨1, ?_⟩
      rw [String.toList_append, htext]
      rfl
    · exact ⟨0, htext⟩
  have hsign : (if e < 0 then "-" else "+").toList = [if e < 0 then '-' else '+'] := by
    split <;> rfl
  have htail : ("e" ++ (if e < 0 then "-" else "+") ++
      (if (toString e.natAbs).length < 2 then "0" ++ toString e.natAbs
        else toString e.natAbs)).toList =
      'e' :: (if e < 0 then '-' else '+') ::
        (List.replicate zeros '0' ++ Nat.toDigits 10 e.natAbs) := by
    rw [String.toList_append, String.toList_append, hzeros, hsign]
    rfl
  have hdigits : ∀ c ∈ List.replicate zeros '0' ++ Nat.toDigits 10 e.natAbs, c.isDigit = true := by
    intro c hc
    rcases List.mem_append.mp hc with hzero | hdigit
    · rw [List.eq_of_mem_replicate hzero]
      decide
    · exact isDigit_toDigits hdigit
  refine ⟨_, .some (Or.inl rfl) ?_, ?_, htail⟩
  · have hne : List.replicate zeros '0' ++ Nat.toDigits 10 e.natAbs ≠ [] :=
      List.append_ne_nil_of_right_ne_nil _ Nat.toDigits_ne_nil
    have hread : (if List.replicate zeros '0' ++ Nat.toDigits 10 e.natAbs ≠ [] ∧
        (List.replicate zeros '0' ++ Nat.toDigits 10 e.natAbs).all Char.isDigit then
          some (digitsValue (List.replicate zeros '0' ++ Nat.toDigits 10 e.natAbs) : Int)
        else none) = some (e.natAbs : Int) := by
      rw [if_pos ⟨hne, List.all_eq_true.mpr hdigits⟩, digitsValue_zeros]
    by_cases hnegative : e < 0
    · rw [if_pos hnegative]
      refine (congrArg (Option.map (- ·)) hread).trans ?_
      rw [Option.map_some, Option.some.injEq]
      omega
    · rw [if_neg hnegative]
      refine hread.trans ?_
      rw [Option.some.injEq]
      omega
  · intro c hc
    rcases List.mem_cons.mp hc with rfl | hc
    · exact ⟨by decide, by decide, by decide⟩
    · rcases List.mem_cons.mp hc with rfl | hdigit
      · split <;> exact plain_of_mem (by simp)
      · exact plain_of_isDigit (hdigits c hdigit)

namespace PyFloat

/-- **The layout of a float is a numeral.** -/
theorem numeral_layout {ds : List Char} (hne : ds ≠ []) (hdigits : ∀ c ∈ ds, c.isDigit = true)
    (point : Int) : Numeral (layout ds point).toList (ds.length + 2 * point.natAbs + 2) := by
  have htake : ∀ n, ∀ c ∈ ds.take n, c.isDigit = true := fun n c hc => hdigits c (List.mem_of_mem_take hc)
  have hdrop : ∀ n, ∀ c ∈ ds.drop n, c.isDigit = true := fun n c hc => hdigits c (List.mem_of_mem_drop hc)
  have hzero : ∀ n, ∀ c ∈ List.replicate n '0', c.isDigit = true := by
    intro n c hc
    rw [List.eq_of_mem_replicate hc]
    decide
  have hlength : 0 < ds.length := List.length_pos_of_ne_nil hne
  unfold layout
  dsimp only
  split
  · -- an exponent
    obtain ⟨tail, htail, hplain, htext⟩ := exponentText_padded (point - 1)
    have hpart : (if ds.length ≤ 1 then "" else "." ++ String.ofList (ds.drop 1)).toList =
        if ds.drop 1 = [] then [] else '.' :: ds.drop 1 := by
      by_cases hone : ds.length ≤ 1
      · rw [if_pos hone, if_pos (List.drop_eq_nil_of_le hone)]
        rfl
      · have hmore : ds.drop 1 ≠ [] := by
          rw [ne_eq, List.drop_eq_nil_iff]
          exact hone
        rw [if_neg hone, if_neg hmore, String.toList_append]
        exact congrArg ('.' :: ·) String.toList_ofList
    rw [String.append_assoc, String.append_assoc, String.append_assoc, String.toList_append,
      String.toList_append, ← String.append_assoc, htext, String.toList_ofList, hpart,
      ← List.append_assoc]
    refine numeral_of_parts htail hplain ?_ (htake 1) (hdrop 1) ?_
    · rw [ne_eq, List.take_eq_nil_iff]
      simp [hne]
    · rw [List.length_take, List.length_drop]
      omega
  · split
    · -- zeros after the point
      have htext : ("0." ++ zeros (-point).toNat ++ String.ofList ds).toList =
          ['0'] ++ '.' :: (List.replicate (-point).toNat '0' ++ ds) := by
        simp [zeros]
      rw [htext]
      refine numeral_pointed (List.cons_ne_nil _ _) (List.append_ne_nil_of_right_ne_nil _ hne)
        (hzero 1) (fun c hc => ?_) ?_
      · rcases List.mem_append.mp hc with hmem | hmem
        · exact hzero _ c hmem
        · exact hdigits c hmem
      · rw [List.length_append, List.length_replicate, List.length_singleton]
        omega
    · split
      · -- zeros before the point
        have htext : (String.ofList ds ++ zeros (point - ds.length).toNat ++ ".0").toList =
            (ds ++ List.replicate (point - ds.length).toNat '0') ++ '.' :: ['0'] := by
          simp [zeros]
        rw [htext]
        refine numeral_pointed (List.append_ne_nil_of_left_ne_nil hne _) (List.cons_ne_nil _ _)
          (fun c hc => ?_) (hzero 1) ?_
        · rcases List.mem_append.mp hc with hmem | hmem
          · exact hdigits c hmem
          · exact hzero _ c hmem
        · rw [List.length_append, List.length_replicate, List.length_singleton]
          omega
      · next hpositive hinside =>
        have htext : (String.ofList (ds.take point.toNat) ++ "." ++
            String.ofList (ds.drop point.toNat)).toList =
            ds.take point.toNat ++ '.' :: ds.drop point.toNat := by
          simp
        rw [htext]
        refine numeral_pointed ?_ ?_ (htake _) (hdrop _) ?_
        · rw [ne_eq, List.take_eq_nil_iff]
          simp only [hne, or_false]
          omega
        · rw [ne_eq, List.drop_eq_nil_iff]
          omega
        · rw [List.length_take, List.length_drop]
          omega

/-- The digits of a decimal around a positive number: at least one, and no more than asked. -/
theorem floor_bounds {x : ℚ} (hx : 0 < x) {k : Nat} (hk : 1 ≤ k) :
    1 ≤ (x / (10 : ℚ) ^ (floorLog 10 x - k + 1)).floor ∧
      (x / (10 : ℚ) ^ (floorLog 10 x - k + 1)).floor < 10 ^ k := by
  obtain ⟨hlow, hhigh⟩ := floorLog_spec (show 1 < 10 by decide) hx
  rw [Nat.cast_ofNat] at hlow hhigh
  have hunit : (0 : ℚ) < 10 ^ (floorLog 10 x - k + 1) := zpow_pos (by norm_num) _
  constructor
  · rw [Rat.le_floor_iff, Int.cast_one, one_le_div hunit]
    exact le_trans (zpow_le_zpow_right₀ (by norm_num) (by omega)) hlow
  · rw [Rat.floor_lt_iff, div_lt_iff₀ hunit]
    have hsplit : (((10 ^ k : Int)) : ℚ) * 10 ^ (floorLog 10 x - k + 1) =
        10 ^ (floorLog 10 x + 1) := by
      rw [Int.cast_pow, Int.cast_ofNat, ← zpow_natCast, ← zpow_add₀ (by norm_num)]
      congr 1
      omega
    rw [hsplit]
    exact hhigh

/-- **What `shortest` finds** has at least one digit and at most twenty, and ends so many
    places below the first one. -/
theorem shortest_bounds {x : ℚ} (hx : 0 < x) :
    ∀ (fuel : Nat) {k : Nat}, 1 ≤ k → ∃ j, k ≤ j ∧ j ≤ k + fuel ∧
      1 ≤ (shortest x fuel k).1 ∧ (shortest x fuel k).1 ≤ 10 ^ j ∧
      (shortest x fuel k).2 = floorLog 10 x - j + 1
  | 0, k, hk => by
      obtain ⟨hlow, hhigh⟩ := floor_bounds hx hk
      exact ⟨k, Nat.le_refl _, Nat.le_refl _, hlow, Int.le_of_lt hhigh, rfl⟩
  | fuel + 1, k, hk => by
      obtain ⟨hlow, hhigh⟩ := floor_bounds hx hk
      rw [shortest]
      split
      · next c hfound =>
          refine ⟨k, Nat.le_refl _, Nat.le_add_right _ _, ?_⟩
          have hmem : c ∈ candidates x k := List.mem_of_find?_eq_some hfound
          have hcases : c = ((x / (10 : ℚ) ^ (floorLog 10 x - k + 1)).floor,
              floorLog 10 x - k + 1) ∨
              c = ((x / (10 : ℚ) ^ (floorLog 10 x - k + 1)).floor + 1,
                floorLog 10 x - k + 1) := by
            unfold candidates at hmem
            dsimp only at hmem
            split at hmem
            · simpa using hmem
            · simpa [or_comm] using hmem
          rcases hcases with rfl | rfl
          · exact ⟨hlow, Int.le_of_lt hhigh, rfl⟩
          · exact ⟨by dsimp only; omega, hhigh, rfl⟩
      · obtain ⟨j, hkj, hj, hrest⟩ := shortest_bounds hx fuel (k := k + 1) (by omega)
        exact ⟨j, by omega, by omega, hrest⟩

/-- The first digit of a float of binary64 stands within 1100 places of the point. -/
theorem floorLog_double {m e : Int} (hm : m ≠ 0) (hdouble : IsDouble (finite m e)) :
    (floorLog 10 |(m : ℚ) * 2 ^ e|).natAbs ≤ 1100 := by
  obtain ⟨hbound, hlow, hhigh⟩ := hdouble
  have htwo : (0 : ℚ) < 2 ^ e := zpow_pos (by norm_num) e
  have habs : |(m : ℚ) * 2 ^ e| = (|m| : Int) * 2 ^ e := by
    rw [abs_mul, abs_of_pos htwo, Int.cast_abs]
  have hone : (1 : ℚ) ≤ (|m| : Int) := by exact_mod_cast Int.one_le_abs hm
  have hlarge : ((|m| : Int) : ℚ) ≤ 2 ^ (53 : Int) := by
    exact_mod_cast Int.le_of_lt hbound
  have hpositive : 0 < |(m : ℚ) * 2 ^ e| := by
    rw [habs]
    exact mul_pos (lt_of_lt_of_le one_pos hone) htwo
  obtain ⟨hleft, hright⟩ := floorLog_spec (show 1 < 10 by decide) hpositive
  rw [Nat.cast_ofNat] at hleft hright
  -- the number lies between 2 ^ -1074 and 2 ^ 1024, and so between powers of ten
  have hupper : |(m : ℚ) * 2 ^ e| ≤ 10 ^ (1024 : Int) := by
    rw [habs]
    calc ((|m| : Int) : ℚ) * 2 ^ e ≤ 2 ^ (53 : Int) * 2 ^ (971 : Int) :=
          mul_le_mul hlarge (zpow_le_zpow_right₀ (by norm_num) hhigh) (le_of_lt htwo)
            (le_of_lt (zpow_pos (by norm_num) _))
      _ = 2 ^ (1024 : Int) := by
          rw [← zpow_add₀ (by norm_num)]
          norm_num
      _ ≤ 10 ^ (1024 : Int) := zpow_le_zpow_left₀ (by norm_num) (by norm_num) (by norm_num)
  have hlower : (10 : ℚ) ^ (-1074 : Int) ≤ |(m : ℚ) * 2 ^ e| := by
    rw [habs]
    calc (10 : ℚ) ^ (-1074 : Int) ≤ 2 ^ (-1074 : Int) := by
          rw [zpow_neg, zpow_neg]
          exact inv_anti₀ (zpow_pos (by norm_num) _)
            (zpow_le_zpow_left₀ (by norm_num) (by norm_num) (by norm_num))
      _ ≤ 2 ^ e := zpow_le_zpow_right₀ (by norm_num) hlow
      _ ≤ (|m| : Int) * 2 ^ e := le_mul_of_one_le_left (le_of_lt htwo) hone
  have hbelow : floorLog 10 |(m : ℚ) * 2 ^ e| ≤ 1024 :=
    (zpow_le_zpow_iff_right₀ (by norm_num)).mp (le_trans hleft hupper)
  have habove : -1074 < floorLog 10 |(m : ℚ) * 2 ^ e| + 1 :=
    (zpow_lt_zpow_iff_right₀ (by norm_num)).mp (lt_of_le_of_lt hlower hright)
  omega

/-- A number without the zeros at its end keeps a digit. -/
theorem significant_spec {n : Nat} (hn : 0 < n) :
    ((Nat.toDigits 10 n).reverse.dropWhile (· = '0')).reverse ≠ [] ∧
      (∀ c ∈ ((Nat.toDigits 10 n).reverse.dropWhile (· = '0')).reverse, c.isDigit = true) ∧
      ((Nat.toDigits 10 n).reverse.dropWhile (· = '0')).reverse.length ≤ numDigits n := by
  have hsublist : ((Nat.toDigits 10 n).reverse.dropWhile (· = '0')).Sublist
      (Nat.toDigits 10 n).reverse := List.dropWhile_sublist _
  refine ⟨fun hempty => ?_, fun c hc => ?_, ?_⟩
  · rw [List.reverse_eq_nil_iff, List.dropWhile_eq_nil_iff] at hempty
    have hzeros : Nat.toDigits 10 n = List.replicate (Nat.toDigits 10 n).length '0' := by
      rw [List.eq_replicate_iff]
      exact ⟨rfl, fun c hc => of_decide_eq_true (hempty c (List.mem_reverse.mpr hc))⟩
    have hvalue := digitsValue_toDigits n
    rw [hzeros, digitsValue, Nat.ofDigitChars_replicate_zero, Nat.mul_zero] at hvalue
    omega
  · exact isDigit_toDigits (List.mem_reverse.mp (hsublist.subset (List.mem_reverse.mp hc)))
  · rw [List.length_reverse]
    exact hsublist.length_le.trans (Nat.le_of_eq List.length_reverse)

/-- **The `repr` of a float** other than NaN is a numeral. -/
theorem decimal?_repr {x : PyFloat} (hdouble : x.IsDouble) (hnan : x ≠ nan) :
    ∃ d, decimal? x.repr = some d ∧ d ≠ .nan := by
  cases x with
  | nan => exact absurd rfl hnan
  | negZero => exact ⟨.finite true 0 (-1), by decide, by decide⟩
  | inf negative =>
      cases negative
      · exact ⟨.infinity false, by decide, by decide⟩
      · exact ⟨.infinity true, by decide, by decide⟩
  | finite m e =>
      by_cases hm : m = 0
      · refine ⟨.finite false 0 (-1), ?_, by decide⟩
        rw [repr, if_pos hm]
        decide
      · rw [repr, if_neg hm]
        dsimp only
        have hlog := floorLog_double hm hdouble
        have hpositive : 0 < |(m : ℚ) * 2 ^ e| := by
          have htwo : (2 : ℚ) ^ e ≠ 0 := zpow_ne_zero e (by norm_num)
          exact abs_pos.mpr (mul_ne_zero (Int.cast_ne_zero.mpr hm) htwo)
        generalize |(m : ℚ) * 2 ^ e| = x at hlog hpositive ⊢
        obtain ⟨j, _, hj, hone, hpow, hlast⟩ := shortest_bounds hpositive 17 (le_refl 1)
        have hcount : numDigits (shortest x 17 1).1.toNat ≤ 19 := by
          rw [numDigits_le_iff (by decide)]
          have hle : (10 : Int) ^ j ≤ 10 ^ 18 := pow_le_pow_right₀ (by decide) (by omega)
          have hlt : (10 : Int) ^ 18 < ((10 ^ 19 : Nat) : Int) := by decide
          omega
        obtain ⟨hne, hdigits, hlength⟩ := significant_spec (n := (shortest x 17 1).1.toNat) (by omega)
        obtain ⟨hplain, hhead, coefficient, exponent, hreads, hsize, hexponent⟩ :=
          numeral_layout hne hdigits
            (((Nat.toDigits 10 (shortest x 17 1).1.toNat).length : Int) + (shortest x 17 1).2)
        have hdigitsLength : (Nat.toDigits 10 (shortest x 17 1).1.toNat).length =
            numDigits (shortest x 17 1).1.toNat := rfl
        have hexact : exact coefficient exponent := by
          unfold exact
          omega
        have htext : ∀ body : String, (if m < 0 then "-" else "") ++ body =
            String.ofList ((if decide (m < 0) then ['-'] else []) ++ body.toList) := by
          intro body
          rw [String.ofList_append, String.ofList_toList]
          by_cases hnegative : m < 0
          · rw [if_pos hnegative, if_pos (decide_eq_true hnegative)]
          · rw [if_neg hnegative, if_neg (by simpa using hnegative)]
        rw [htext, decimal?_signed hplain hhead hreads hexact]
        exact ⟨_, rfl, fun h => nomatch h⟩

end PyFloat

end Helpdesk.Python
