/-
  File:      Helpdesk/Tickets/Numbers.lean
  Subject:   The numbers of a draft.

  A NUMBER field keeps the text of the normal form of what it was given. The normal form
  has 28 digits, so a longer number is rounded, and for a number beyond the exponents of
  the context there is an exception that nothing catches.

  * `normalizeNumber_of_none`, `normalizeNumber_of_some`: what `_normalize` makes of a value;
  * `numberMessages_nil`: the limits hold of the number that is kept;
  * `keepsNumbers_iff`: exactly when every number is kept as it was supplied;
  * `long_number_is_rounded`: a number of 29 digits.
-/
import Helpdesk.Python.DecimalTexts
import Helpdesk.Tickets.RequiredFields

namespace Helpdesk.Tickets

open Helpdesk.Python Json Decimal

variable {records : List FormFieldRecord} {supplied : List CustomFieldInput} {complete : Bool}
  {raw r : List (String × Json)} {group : FieldGroup} {field : FormFieldRecord} {value v : Json}
  {x : ℚ}

/-! ## 1. Numbers and limits -/

/-- The number that a value denotes by its text. -/
def suppliedNumber? : Json → Option ℚ
  | .bool _ => none
  | value => (decimal? (pyStr value)).bind value?

theorem suppliedNumber?_int (n : Int) :
    suppliedNumber? (.int n) = (decimal? (toString n)).bind value? := rfl

/-- An int that Python writes, or a float that JSON has. -/
inductive JsonNumber : Json → Prop
  | int {n : Int} (digits : numDigits n.natAbs ≤ 4300) : JsonNumber (.int n)
  | float {x : PyFloat} (double : x.IsDouble) (number : x ≠ .nan) : JsonNumber (.float x)

/-- A limit of a field that is set is a number. -/
def NumericLimits (field : FormFieldRecord) : Prop :=
  ∀ key ∈ ["minimum", "maximum"],
    getD (limits field.validation) key = .null ∨ JsonNumber (getD (limits field.validation) key)

/-- `d ≤ x`, for a decimal that is no NaN. -/
def AtMost (d : Decimal) (x : ℚ) : Prop :=
  match d with
  | finite negative coefficient exponent => number negative coefficient exponent ≤ x
  | infinity negative => negative = true
  | nan => False

/-- `x ≤ d`, for a decimal that is no NaN. -/
def AtLeast (d : Decimal) (x : ℚ) : Prop :=
  match d with
  | finite negative coefficient exponent => x ≤ number negative coefficient exponent
  | infinity negative => negative = false
  | nan => False

/-- The number lies within the limits that are set. -/
structure WithinLimits (field : FormFieldRecord) (x : ℚ) : Prop where
  low : getD (limits field.validation) "minimum" ≠ .null →
    ∀ d ∈ decimal? (pyStr (getD (limits field.validation) "minimum")), AtMost d x
  high : getD (limits field.validation) "maximum" ≠ .null →
    ∀ d ∈ decimal? (pyStr (getD (limits field.validation) "maximum")), AtLeast d x

theorem JsonNumber.limitOf (h : JsonNumber v) : ∃ d, limitOf v = .ok d ∧ d ≠ .nan := by
  cases h with
  | @int n hdigits =>
      have hread := decimal?_int (n := n) (Nat.le_trans hdigits (by decide))
      refine ⟨finite (decide (n < 0)) n.natAbs 0, ?_, fun h => nomatch h⟩
      unfold Tickets.limitOf
      rw [show pyStr (.int n) = toString n from rfl, hread]
  | @float x hdouble hnumber =>
      obtain ⟨d, hread, hnan⟩ := PyFloat.decimal?_repr hdouble hnumber
      refine ⟨d, ?_, hnan⟩
      unfold Tickets.limitOf
      rw [show pyStr (.float x) = x.repr from rfl, hread]

/-! ## 2. The check of the limits -/

/-- The message about one limit of a number. -/
def limitMessage (crosses : Decimal → Except Raised Bool) (text : String) (limit : Json) :
    Except Raised (List String) :=
  match limit with
  | .null => pure []
  | limit => do
      if ← crosses (← limitOf limit) then
        pure [text ++ pyStr limit ++ "."]
      else pure []

theorem limitMessage_of_ne {crosses : Decimal → Except Raised Bool} {text : String} {limit : Json}
    (h : limit ≠ .null) :
    limitMessage crosses text limit = (do
      if ← crosses (← limitOf limit) then
        pure [text ++ pyStr limit ++ "."]
      else pure []) := by
  cases limit with
  | null => exact absurd rfl h
  | _ => rfl

theorem numberMessages_eq (validation : List (String × Json)) (value : Json) :
    numberMessages validation value = (do
      let numeric ← limitOf value
      let low ← limitMessage (less numeric ·) "Value must be at least "
        (getD validation "minimum")
      let high ← limitMessage (less · numeric) "Value must be at most "
        (getD validation "maximum")
      return low ++ high) := by
  have hjoin : ∀ {α : Type} (x : Except Raised Decimal) (crosses : Decimal → Except Raised Bool)
      (a b : List String) (f : List String → Except Raised α),
      (do if ← crosses (← x) then do let m ← pure a; f m else do let m ← pure b; f m) =
        (do if ← crosses (← x) then pure a else pure b) >>= f := by
    intro α x crosses a b f
    cases x with
    | error e => rfl
    | ok d =>
        show (crosses d >>= _) = (crosses d >>= _) >>= f
        cases crosses d with
        | error e => rfl
        | ok crossed => cases crossed <;> rfl
  unfold numberMessages
  refine congrArg (limitOf value >>= ·) (funext fun numeric => ?_)
  dsimp only
  generalize getD validation "minimum" = minimum
  generalize getD validation "maximum" = maximum
  have hhigh : ∀ low : List String, (match maximum with
      | .null => do
          let high ← (pure [] : Except Raised (List String))
          pure (low ++ high)
      | maximum => do
          if ← less (← limitOf maximum) numeric then do
            let high ← pure ["Value must be at most " ++ pyStr maximum ++ "."]
            pure (low ++ high)
          else do
            let high ← pure []
            pure (low ++ high)) =
        limitMessage (less · numeric) "Value must be at most " maximum >>= fun high =>
          pure (low ++ high) := by
    intro low
    split
    · rfl
    · next hne =>
        rw [limitMessage_of_ne hne]
        exact hjoin _ (less · numeric) _ _ _
  split
  · exact hhigh []
  · next hne =>
      rw [limitMessage_of_ne hne, ← hjoin _ (less numeric ·)]
      refine congrArg (limitOf _ >>= ·) (funext fun d => congrArg (less numeric d >>= ·)
        (funext fun below => ?_))
      split
      · exact hhigh _
      · exact hhigh _

/-- **One limit** that is set is compared without an exception, and the comparison holds if
    there is no message. -/
theorem limitMessage_ok (crosses : Decimal → Except Raised Bool) (text : String)
    (holds : Decimal → Prop) {limit : Json} (hnumber : limit = .null ∨ JsonNumber limit)
    (hcompares : ∀ d, d ≠ .nan → ∃ crossed, crosses d = .ok crossed ∧ (crossed = false → holds d)) :
    ∃ messages, limitMessage crosses text limit = .ok messages ∧
      (messages = [] → limit ≠ .null → ∀ d ∈ decimal? (pyStr limit), holds d) := by
  rcases hnumber with rfl | hnumber
  · exact ⟨[], rfl, fun _ hne => absurd rfl hne⟩
  · obtain ⟨d, hlimit, hnan⟩ := hnumber.limitOf
    obtain ⟨crossed, hcrossed, hholds⟩ := hcompares d hnan
    have hne : limit ≠ .null := by
      rintro rfl
      cases hnumber
    refine ⟨if crossed then [text ++ pyStr limit ++ "."] else [], ?_, fun hnone _ d' hd' => ?_⟩
    · rw [limitMessage_of_ne hne, hlimit]
      show (crosses d >>= _) = _
      rw [hcrossed]
      cases crossed <;> rfl
    · obtain rfl : d' = d := by
        unfold limitOf at hlimit
        rw [Option.mem_def.mp hd'] at hlimit
        exact Except.ok.inj hlimit
      cases crossed with
      | true => cases hnone
      | false => exact hholds rfl

/-- **The limits of a number** are checked without an exception, and hold if there is no
    message. -/
theorem numberMessages_ok {d : Decimal} (hlimits : NumericLimits field) (hnormal : d.Normal)
    (hvalue : d.value? = some x) :
    ∃ messages, numberMessages (limits field.validation) (.str d.text) = .ok messages ∧
      (messages = [] → WithinLimits field x) := by
  obtain ⟨negative, coefficient, exponent, rfl⟩ := decimal?_normal_cases hnormal
  obtain rfl : number negative coefficient exponent = x := Option.some.inj hvalue
  have hread : limitOf (.str (finite negative coefficient exponent).text) =
      .ok (finite negative coefficient exponent) := by
    unfold limitOf
    rw [show pyStr (.str (finite negative coefficient exponent).text) =
      (finite negative coefficient exponent).text from rfl, hnormal.decimal?_text]
  obtain ⟨low, hlow, hlowHolds⟩ := limitMessage_ok
    (less (finite negative coefficient exponent) ·) "Value must be at least "
    (AtMost · (number negative coefficient exponent))
    (hlimits "minimum" (by simp)) fun limit hnan => by
      cases limit with
      | nan => exact absurd rfl hnan
      | infinity sign => exact ⟨!sign, rfl, fun h => (Bool.not_eq_false' sign).mp h⟩
      | finite sign c e =>
          exact ⟨_, by rw [less, lt?_finite], fun h => not_lt.mp (of_decide_eq_false h)⟩
  obtain ⟨high, hhigh, hhighHolds⟩ := limitMessage_ok
    (less · (finite negative coefficient exponent)) "Value must be at most "
    (AtLeast · (number negative coefficient exponent))
    (hlimits "maximum" (by simp)) fun limit hnan => by
      cases limit with
      | nan => exact absurd rfl hnan
      | infinity sign => exact ⟨sign, rfl, fun h => h⟩
      | finite sign c e =>
          exact ⟨_, by rw [less, lt?_finite], fun h => not_lt.mp (of_decide_eq_false h)⟩
  refine ⟨low ++ high, ?_, fun hnone => ?_⟩
  · rw [numberMessages_eq, hread]
    show (limitMessage _ _ _ >>= _) = _
    rw [hlow]
    show (limitMessage _ _ _ >>= _) = _
    rw [hhigh]
    rfl
  · obtain ⟨hlowNone, hhighNone⟩ := List.append_eq_nil_iff.mp hnone
    exact ⟨hlowHolds hlowNone, hhighHolds hhighNone⟩

/-! ## 3. The number that is kept -/

/-- A value that denotes no number is refused. -/
theorem normalizeNumber_of_none (h : suppliedNumber? value = none) :
    ∃ message, normalizeNumber value = .error (.valueError message) := by
  unfold normalizeNumber
  split
  · exact ⟨_, rfl⟩
  · next hbool =>
      have hread : (decimal? (pyStr value)).bind value? = none := by
        cases value with
        | bool b => exact absurd rfl (hbool b)
        | _ => exact h
      split
      · exact ⟨_, rfl⟩
      · next hfinite =>
          rw [hfinite] at hread
          cases hread
      · exact ⟨_, rfl⟩

/-- **What is kept of a number**: there is an exception if it overflows, and otherwise the
    text of its normal form, which is the same number exactly if it fits. -/
theorem normalizeNumber_of_some (h : suppliedNumber? value = some x) :
    (Overflows x ∧ normalizeNumber value = .error .overflow) ∨
      (¬ Overflows x ∧ ∃ d : Decimal, d.Normal ∧ normalizeNumber value = .ok (.str d.text) ∧
        (d.value? = some x ↔ Fits x)) := by
  unfold normalizeNumber
  split
  · cases h
  · next hbool =>
      have hread : (decimal? (pyStr value)).bind value? = some x := by
        cases value with
        | bool b => exact absurd rfl (hbool b)
        | _ => exact h
      split
      · next hnone =>
          rw [hnone] at hread
          cases hread
      · next negative coefficient exponent hfinite =>
          rw [hfinite] at hread
          obtain rfl : number negative coefficient exponent = x := Option.some.inj hread
          cases hnormal : Decimal.normalize (finite negative coefficient exponent) with
          | none => exact .inl ⟨normalize_none_iff.mp hnormal, rfl⟩
          | some d =>
              refine .inr ⟨fun hover => ?_, d, normal_of_normalize hnormal, rfl,
                normalize_exact_iff hnormal⟩
              rw [normalize_none_iff.mpr hover] at hnormal
              cases hnormal
      · next d hnot hspecial =>
          rw [hspecial] at hread
          cases d with
          | finite negative coefficient exponent => exact absurd rfl (hnot _ _ _)
          | infinity => cases hread
          | nan => cases hread

/-! ## 4. One field -/

/-- A NUMBER field that applies and was given a number. -/
structure GivenNumber (raw : List (String × Json)) (group : FieldGroup) (x : ℚ) : Prop where
  type : group.field.dataType = .number
  applies : Applies raw group
  given : isBlank (getD raw group.code) = false
  number : suppliedNumber? (getD raw group.code) = some x

theorem normalize_number (h : group.field.dataType = .number) (value : Json) :
    Tickets.normalize group value = normalizeNumber value := by
  simp only [Tickets.normalize, h]

/-- Only a number overflows. -/
theorem normalize_overflow (h : Tickets.normalize group value = .error .overflow) :
    group.field.dataType = .number ∧ ∃ x, suppliedNumber? value = some x ∧ Overflows x := by
  have htype : group.field.dataType = .number := by
    cases htype : group.field.dataType with
    | number => rfl
    | text | longText =>
        simp only [Tickets.normalize, htype] at h
        split at h <;> cases h
    | boolean =>
        simp only [Tickets.normalize, htype, normalizeBoolean] at h
        repeat' split at h
        all_goals cases h
    | date =>
        simp only [Tickets.normalize, htype, normalizeDate] at h
        split at h <;> cases h
    | timestamp =>
        simp only [Tickets.normalize, htype, normalizeTimestamp] at h
        split at h <;> cases h
    | user | group | service | module_ | asset =>
        simp only [Tickets.normalize, htype, normalizeReference] at h
        split at h <;> cases h
    | singleSelect =>
        simp only [Tickets.normalize, htype, normalizeSelection] at h
        repeat' split at h
        all_goals cases h
    | multiSelect =>
        simp only [Tickets.normalize, htype, normalizeSelections] at h
        repeat' split at h
        all_goals cases h
    | jsonObject =>
        simp only [Tickets.normalize, htype, normalizeObject] at h
        repeat' split at h
        all_goals cases h
  refine ⟨htype, ?_⟩
  rw [normalize_number htype] at h
  cases hnumber : suppliedNumber? value with
  | none =>
      obtain ⟨message, hmessage⟩ := normalizeNumber_of_none hnumber
      rw [hmessage] at h
      cases h
  | some x =>
      rcases normalizeNumber_of_some hnumber with ⟨hover, _⟩ | ⟨_, d, _, hok, _⟩
      · exact ⟨x, rfl, hover⟩
      · rw [hok] at h
        cases h

/-- The limits of a normal form are checked without an exception. -/
theorem validateBounds_ok (hlimits : group.field.dataType = .number → NumericLimits group.field)
    (h : Tickets.normalize group value = .ok v) :
    ∃ messages, validateBounds group.field v = .ok messages := by
  unfold validateBounds
  dsimp only
  split
  · next htype =>
      rw [normalize_number htype] at h
      obtain ⟨d, hnormal, _, rfl⟩ := normalizeNumber_ok h
      obtain ⟨negative, coefficient, exponent, rfl⟩ := decimal?_normal_cases hnormal
      obtain ⟨messages, hmessages, _⟩ := numberMessages_ok (hlimits htype) hnormal rfl
      rw [hmessages]
      exact ⟨_, rfl⟩
  · exact ⟨_, rfl⟩

/-- **A field raises nothing** if its condition is a rule and no number it was given
    overflows. -/
theorem validateField_total_iff
    (hlimits : group.field.dataType = .number → NumericLimits group.field) :
    (∃ result, validateField complete raw group = .ok result) ↔
      (∃ applies, conditionApplies group.field.condition raw = .ok applies) ∧
        ∀ x, GivenNumber raw group x → ¬ Overflows x := by
  unfold validateField
  constructor
  · rintro ⟨result, h⟩
    obtain ⟨applies, happlies, h⟩ := bind_eq_ok.mp h
    refine ⟨⟨applies, happlies⟩, fun x hgiven hover => ?_⟩
    obtain rfl : true = applies := Except.ok.inj (hgiven.applies.symm.trans happlies)
    rcases normalizeNumber_of_some hgiven.number with ⟨_, herror⟩ | ⟨hnot, _⟩
    · rw [if_pos rfl, if_neg (Bool.eq_false_iff.mp hgiven.given), normalize_number hgiven.type,
        herror] at h
      exact throw_ne_ok.mp h
    · exact hnot hover
  · rintro ⟨⟨applies, happlies⟩, hnumbers⟩
    rw [happlies]
    show ∃ result, (if applies = true then _ else _) = Except.ok result
    cases applies with
    | false => exact ⟨_, rfl⟩
    | true =>
        rw [if_pos rfl]
        split
        · exact ⟨_, rfl⟩
        · next hgiven =>
            split
            · exact ⟨_, rfl⟩
            · next hoverflow =>
                obtain ⟨htype, x, hnumber, hover⟩ := normalize_overflow hoverflow
                exact absurd hover (hnumbers x
                  ⟨htype, happlies, Bool.eq_false_iff.mpr hgiven, hnumber⟩)
            · next v hnormal =>
                obtain ⟨messages, hmessages⟩ := validateBounds_ok hlimits hnormal
                rw [hmessages]
                exact ⟨_, rfl⟩

/-! ## 5. The draft -/

/-- The form accepts the input. -/
def Acceptable (complete : Bool) (records : List FormFieldRecord)
    (supplied : List CustomFieldInput) : Prop :=
  (supply supplied).repeated = [] ∧
    (∀ name ∈ (supply supplied).raw.map (·.1), name ∈ codes (grouped records)) ∧
    ∀ group ∈ grouped records, ∃ entry, Accepted complete (supply supplied).raw group entry

/-- **Numbers are kept**: there is no exception but a `ValidationError`, and what is returned
    for a NUMBER field that was given a value is the text of the number that was given, which
    lies within the limits of the field. -/
structure KeepsNumbers (complete : Bool) (records : List FormFieldRecord)
    (supplied : List CustomFieldInput) : Prop where
  raises : ∀ what, validateAndNormalize records supplied complete ≠ .error (.raised what)
  exact : ∀ r, validateAndNormalize records supplied complete = .ok r →
    ∀ group ∈ grouped records, group.field.dataType = .number →
      Applies (supply supplied).raw group →
      isBlank (getD (supply supplied).raw group.code) = false →
      ∃ text x, lookup group.code r = some (.str text) ∧
        (decimal? text).bind value? = some x ∧
        suppliedNumber? (getD (supply supplied).raw group.code) = some x ∧
        WithinLimits group.field x

/-- The exceptions of the loop are those of its fields. -/
theorem raises_nothing_iff :
    (∀ what, validateAndNormalize records supplied complete ≠ .error (.raised what)) ↔
      ∀ group ∈ grouped records, ∃ result,
        validateField complete (supply supplied).raw group = .ok result := by
  unfold validateAndNormalize
  dsimp only
  constructor
  · intro hnone
    cases hloop : (grouped records).mapM (validateField complete (supply supplied).raw) with
    | error what =>
        rw [hloop] at hnone
        exact absurd rfl (hnone what)
    | ok results =>
        intro group hgroup
        obtain ⟨result, _, hresult⟩ := mem_of_forall₂ (mapM_pointwise hloop).flip hgroup
        exact ⟨result, hresult⟩
  · intro hall what
    obtain ⟨results, hresults⟩ := mapM_ok hall
    rw [hresults]
    dsimp only
    split
    · exact fun h => nomatch h
    · exact fun h => nomatch h

/-- The entry of a NUMBER field that was given a value. -/
theorem accepted_number {entry : Option Json} (hlimits : NumericLimits group.field)
    (htype : group.field.dataType = .number) (happlies : Applies raw group)
    (hgiven : isBlank (getD raw group.code) = false) (h : Accepted complete raw group entry) :
    ∃ (x y : ℚ) (d : Decimal), GivenNumber raw group x ∧ d.Normal ∧ entry = some (.str d.text) ∧
      d.value? = some y ∧ WithinLimits group.field y ∧ (y = x ↔ Fits x) := by
  cases h with
  | inapplicable hnot =>
      rw [Applies, hnot] at happlies
      cases happlies
  | blank _ hblank =>
      rw [hblank] at hgiven
      cases hgiven
  | @value v _ _ hnormal hbounded =>
      rw [normalize_number htype] at hnormal
      cases hnumber : suppliedNumber? (getD raw group.code) with
      | none =>
          obtain ⟨message, hmessage⟩ := normalizeNumber_of_none hnumber
          rw [hmessage] at hnormal
          cases hnormal
      | some x =>
          rcases normalizeNumber_of_some hnumber with ⟨_, herror⟩ | ⟨_, d, hd, hok, hfits⟩
          · rw [herror] at hnormal
            cases hnormal
          · obtain rfl : Json.str d.text = v := Except.ok.inj (hok.symm.trans hnormal)
            obtain ⟨negative, coefficient, exponent, rfl⟩ := decimal?_normal_cases hd
            obtain ⟨messages, hmessages, hwithin⟩ := numberMessages_ok hlimits hd value?_finite
            have hnone : messages = [] := by
              unfold validateBounds at hbounded
              simp only [htype, if_true, hmessages, bind_eq_ok, pure_eq_ok] at hbounded
              obtain ⟨_, hsame, hnil⟩ := hbounded
              obtain rfl := Except.ok.inj hsame
              exact (List.append_eq_nil_iff.mp hnil).2
            refine ⟨x, _, _, ⟨htype, happlies, hgiven, hnumber⟩, hd, rfl, value?_finite,
              hwithin hnone, ?_⟩
            rw [← hfits, value?_finite, Option.some.injEq]

/-- **Numbers are kept** if and only if every condition of the form is a rule, no number that
    was given overflows, and, where the form accepts the input, each of them fits the context:
    at most 28 digits, the last of them no lower than the exponent -1000026. -/
theorem keepsNumbers_iff
    (hlimits : ∀ group ∈ grouped records, group.field.dataType = .number →
      NumericLimits group.field) :
    KeepsNumbers complete records supplied ↔
      (∀ group ∈ grouped records, ∃ applies,
        conditionApplies group.field.condition (supply supplied).raw = .ok applies) ∧
      (∀ group ∈ grouped records, ∀ x, GivenNumber (supply supplied).raw group x →
        ¬ Overflows x) ∧
      (Acceptable complete records supplied → ∀ group ∈ grouped records, ∀ x,
        GivenNumber (supply supplied).raw group x → Fits x) := by
  have hraises : (∀ what, validateAndNormalize records supplied complete ≠ .error (.raised what)) ↔
      (∀ group ∈ grouped records, ∃ applies,
        conditionApplies group.field.condition (supply supplied).raw = .ok applies) ∧
      ∀ group ∈ grouped records, ∀ x, GivenNumber (supply supplied).raw group x →
        ¬ Overflows x := by
    rw [raises_nothing_iff]
    constructor
    · intro hall
      exact ⟨fun group hgroup => ((validateField_total_iff (hlimits group hgroup)).mp
          (hall group hgroup)).1,
        fun group hgroup => ((validateField_total_iff (hlimits group hgroup)).mp
          (hall group hgroup)).2⟩
    · rintro ⟨hconditions, hnumbers⟩ group hgroup
      exact (validateField_total_iff (hlimits group hgroup)).mpr
        ⟨hconditions group hgroup, hnumbers group hgroup⟩
  rw [← and_assoc, ← hraises]
  constructor
  · intro hkeeps
    refine ⟨hkeeps.raises, fun hacceptable group hgroup x hx => ?_⟩
    have hok := validateAndNormalize_ok.mpr
      ⟨hacceptable.1, hacceptable.2.1, hacceptable.2.2, rfl⟩
    obtain ⟨text, y, hlookup, hread, hnumber, _⟩ :=
      hkeeps.exact _ hok group hgroup hx.type hx.applies hx.given
    obtain ⟨x', y', d, hx', hd, hentry, hvalue, _, hfits⟩ :=
      accepted_number (hlimits group hgroup hx.type) hx.type hx.applies hx.given
        (lookup_of_accepted hok hgroup)
    obtain rfl : x' = x := Option.some.inj (hx'.number.symm.trans hx.number)
    obtain rfl : y = x' := Option.some.inj (hnumber.symm.trans hx.number)
    obtain rfl : text = d.text := Json.str.inj (Option.some.inj (hlookup.symm.trans hentry))
    rw [hd.decimal?_text, Option.bind_some, hvalue] at hread
    exact hfits.mp (Option.some.inj hread)
  · rintro ⟨hnone, hfits⟩
    refine ⟨hnone, fun r hok group hgroup htype happlies hgiven => ?_⟩
    obtain ⟨hrepeated, hknown, haccepted, _⟩ := validateAndNormalize_ok.mp hok
    obtain ⟨x, y, d, hx, hd, hentry, hvalue, hwithin, hsame⟩ :=
      accepted_number (hlimits group hgroup htype) htype happlies hgiven
        (lookup_of_accepted hok hgroup)
    obtain rfl := hsame.mpr (hfits ⟨hrepeated, hknown, haccepted⟩ group hgroup x hx)
    refine ⟨d.text, y, hentry, ?_, hx.number, hwithin⟩
    rw [hd.decimal?_text, Option.bind_some, hvalue]

/-- An amount that is not negative. -/
def amountField : FormFieldRecord :=
  { fieldRecord "amount" .number (.dict []) with validation := .dict [("minimum", .int 0)] }

def amountDraft (n : Int) : List CustomFieldInput := [⟨"amount", .int n⟩]

theorem amountField_limits : ∀ group ∈ grouped [amountField], group.field.dataType = .number →
    NumericLimits group.field := by
  intro group hgroup _ key hkey
  obtain rfl := List.mem_singleton.mp hgroup
  rcases List.mem_cons.mp hkey with rfl | hkey
  · exact .inr (.int (by decide))
  · obtain rfl := List.mem_singleton.mp hkey
    exact .inl rfl

theorem keepsNumbers_amount : KeepsNumbers true [amountField] (amountDraft 1500) := by
  have hnumber : ∀ group ∈ grouped [amountField], ∀ x,
      GivenNumber (supply (amountDraft 1500)).raw group x → number false 1500 0 = x := by
    intro group hgroup x hx
    obtain rfl := List.mem_singleton.mp hgroup
    have hread : suppliedNumber? (.int 1500) = some (number false 1500 0) := by
      rw [suppliedNumber?_int, show decimal? (toString (1500 : Int)) = some (finite false 1500 0) by
        decide +kernel]
      rfl
    exact Option.some.inj (hread.symm.trans hx.number)
  refine (keepsNumbers_iff amountField_limits).mpr ⟨fun group hgroup => ?_,
    fun group hgroup x hx hover => ?_, fun _ group hgroup x hx => ?_⟩
  · obtain rfl := List.mem_singleton.mp hgroup
    exact ⟨true, rfl⟩
  · obtain rfl := hnumber group hgroup x hx
    have hnone := normalize_none_iff.mpr hover
    revert hnone
    decide +kernel
  · obtain rfl := hnumber group hgroup x hx
    exact ⟨1500, 0, by decide, by decide, abs_number⟩

/-- The stored text of a number of 29 digits. -/
def keptAmount : String :=
  match validateAndNormalize [amountField] (amountDraft 10000000000000000000000000001) true with
  | .ok r =>
      match lookup "amount" r with
      | some (.str text) => text
      | _ => ""
  | .error _ => ""

/-- A number of 29 digits, the last of which is not kept. -/
theorem long_number_is_rounded :
    ¬ ∀ (complete : Bool) records supplied,
      (∀ group ∈ grouped records, group.field.dataType = .number → NumericLimits group.field) →
      KeepsNumbers complete records supplied := by
  intro hclaim
  have hkeeps := hclaim true [amountField] (amountDraft 10000000000000000000000000001)
    amountField_limits
  have hkept : keptAmount = "1E+28" := by decide +kernel
  unfold keptAmount at hkept
  split at hkept
  · next r hok =>
      obtain ⟨text, x, hlookup, hread, hnumber, _⟩ := hkeeps.exact r hok
        ⟨amountField, []⟩ (List.mem_singleton_self _) rfl rfl rfl
      have hamount : lookup "amount" r = some (.str text) := hlookup
      rw [hamount] at hkept
      obtain rfl : text = "1E+28" := hkept
      rw [show decimal? "1E+28" = some (finite false 1 28) by decide +kernel] at hread
      obtain rfl : number false 1 28 = x := Option.some.inj hread
      have hgiven : suppliedNumber? (.int 10000000000000000000000000001) =
          some (number false 10000000000000000000000000001 0) := by
        rw [suppliedNumber?_int, show decimal? (toString (10000000000000000000000000001 : Int)) =
          some (finite false 10000000000000000000000000001 0) by decide +kernel]
        rfl
      have hsame : number false 10000000000000000000000000001 0 = number false 1 28 :=
        Option.some.inj (hgiven.symm.trans hnumber)
      norm_num [number] at hsame
  · exact absurd hkept (by decide)

end Helpdesk.Tickets
