/-
  File:      Helpdesk/Python/Decimal.lean
  Subject:   Python's `decimal.Decimal` in its default context (28 digits, half to
             even, exponents between -999999 and 999999).

  A finite decimal is a sign, a coefficient and an exponent of ten: `1E+3` and `1000`
  are equal and not the same. A signalling NaN and the payload of a NaN are not told
  apart from NaN.

  * `decimal?`: what the constructor reads from a text, `none` for `InvalidOperation`;
  * `text`: `str`;
  * `normalize`: rounded to the context and without trailing zeros, `none` for
    `Overflow`;
  * `lt?`: `<`, `none` for `InvalidOperation`;
  * `decimal?_text`: the text reads back;
  * `Normal`: the decimals that `normalize` leaves; each is its own normal form.
-/
import Helpdesk.Python.Text
import Mathlib.Data.List.TakeDrop
import Mathlib.Data.Nat.Digits.Defs
import Mathlib.Data.Rat.Defs
import Mathlib.Tactic.Common

namespace Helpdesk.Python

inductive Decimal where
  | finite (negative : Bool) (coefficient : Nat) (exponent : Int)
  | infinity (negative : Bool)
  | nan
  deriving DecidableEq, Repr

namespace Decimal

/-- The number a finite decimal denotes; the others denote none. -/
def value? : Decimal → Option ℚ
  | finite negative coefficient exponent =>
      some ((if negative then -(coefficient : ℚ) else coefficient) * 10 ^ exponent)
  | _ => none

/-! ## 1. Reading -/

/-- A decimal digit of Unicode as the ASCII one. -/
def asciiDigit (c : Char) : Char :=
  match decimalDigit? c with
  | some d => Nat.digitChar d
  | none => c

/-- What the constructor reads: no white space around, no underscores. -/
def numericText (text : String) : List Char :=
  ((strip text.toList).filter (· ≠ '_')).map asciiDigit

def digitsValue (digits : List Char) : Nat := Nat.ofDigitChars 10 digits 0

/-- The number after `E`. -/
def exponent? (text : List Char) : Option Int :=
  let number := fun (digits : List Char) =>
    if digits ≠ [] ∧ digits.all Char.isDigit then some (digitsValue digits : Int) else none
  match text with
  | '+' :: digits => number digits
  | '-' :: digits => (number digits).map (- ·)
  | digits => number digits

/-- The digits after the point, and what follows them. -/
def fraction (text : List Char) : List Char × List Char :=
  match text with
  | '.' :: rest => rest.span Char.isDigit
  | rest => ([], rest)

/-- Coefficient and exponent of a number without its sign. -/
def number? (text : List Char) : Option (Nat × Int) :=
  let (whole, rest) := text.span Char.isDigit
  let (part, rest) := fraction rest
  if whole = [] ∧ part = [] then none
  else
    let scaled := fun (e : Int) => (digitsValue (whole ++ part), e - part.length)
    match rest with
    | [] => some (scaled 0)
    | 'e' :: exponent | 'E' :: exponent => (exponent? exponent).map scaled
    | _ => none

def numDigits (n : Nat) : Nat := (Nat.toDigits 10 n).length

/-- The exponents of an exact decimal. -/
def exact (coefficient : Nat) (exponent : Int) : Prop :=
  -1999999999999999997 ≤ exponent ∧ exponent + numDigits coefficient ≤ 1000000000000000000

instance (c : Nat) (e : Int) : Decidable (exact c e) := inferInstanceAs (Decidable (_ ∧ _))

def splitSign (text : List Char) : Bool × List Char :=
  match text with
  | '-' :: rest => (true, rest)
  | '+' :: rest => (false, rest)
  | rest => (false, rest)

/-- `inf`, `infinity`, `nan` and `snan`, the last two with digits after them. -/
def special? (negative : Bool) (text : List Char) : Option Decimal :=
  match text.map lowerChar with
  | ['i', 'n', 'f'] | ['i', 'n', 'f', 'i', 'n', 'i', 't', 'y'] => some (infinity negative)
  | 'n' :: 'a' :: 'n' :: digits | 's' :: 'n' :: 'a' :: 'n' :: digits =>
      if digits.all Char.isDigit then some nan else none
  | _ => none

/-- `Decimal(text)`; `none` is the `InvalidOperation`. -/
def decimal? (text : String) : Option Decimal :=
  let (negative, body) := splitSign (numericText text)
  match number? body with
  | some (coefficient, exponent) =>
      if exact coefficient exponent then some (finite negative coefficient exponent) else none
  | none => special? negative body

/-! ## 2. Writing -/

/-- `%+d`. -/
def signed (n : Int) : List Char := (if n < 0 then '-' else '+') :: Nat.toDigits 10 n.natAbs

/-- The digits before and after a point that is `point` places after the first digit. -/
def pointed (digits : List Char) (point : Int) : List Char × List Char :=
  if point ≤ 0 then (['0'], List.replicate (-point).toNat '0' ++ digits)
  else if digits.length ≤ point then
    (digits ++ List.replicate (point.toNat - digits.length) '0', [])
  else (digits.take point.toNat, digits.drop point.toNat)

/-- The text of a finite decimal without its sign. -/
def unsignedChars (coefficient : Nat) (exponent : Int) : List Char :=
  let digits := Nat.toDigits 10 coefficient
  let left := exponent + digits.length
  let point := if exponent ≤ 0 ∧ -6 < left then left else 1
  let (whole, part) := pointed digits point
  whole ++ (if part = [] then [] else '.' :: part) ++
    (if left = point then [] else 'E' :: signed (left - point))

/-- `str(value)`. -/
def text : Decimal → String
  | finite negative coefficient exponent =>
      String.ofList ((if negative then ['-'] else []) ++ unsignedChars coefficient exponent)
  | infinity negative => if negative then "-Infinity" else "Infinity"
  | nan => "NaN"

/-! ## 3. `normalize` -/

def precision : Nat := 28

def emax : Int := 999999

def emin : Int := -999999

/-- `emin-(precision-1)`. -/
def etiny : Int := -1000026

/-- A coefficient without its last digits, rounded half to even. -/
def halfEven (coefficient drop : Nat) : Nat :=
  if numDigits coefficient < drop then 0
  else
    let quotient := coefficient / 10 ^ drop
    let rest := 2 * (coefficient % 10 ^ drop)
    if rest < 10 ^ drop then quotient
    else if 10 ^ drop < rest then quotient + 1
    else quotient + quotient % 2

/-- A positive coefficient rounded to the context; `none` is the `Overflow`. -/
def finalize (coefficient : Nat) (exponent : Int) : Option (Nat × Int) :=
  let digits := numDigits coefficient
  let adjusted := exponent + digits - 1
  if emax < adjusted then none
  else if adjusted < emin ∧ exponent < etiny then
    some (halfEven coefficient (etiny - exponent).toNat, etiny)
  else if precision < digits then
    let rounded := halfEven coefficient (digits - precision)
    let (rounded, exponent) :=
      if rounded = 10 ^ precision then
        (10 ^ (precision - 1), exponent + (digits - precision : Nat) + 1)
      else (rounded, exponent + (digits - precision : Nat))
    if emax < exponent + precision - 1 then none else some (rounded, exponent)
  else some (coefficient, exponent)

/-- A coefficient without its trailing zeros, at most as many as the first argument. -/
def stripZeros : Nat → Nat → Int → Nat × Int
  | 0, coefficient, exponent => (coefficient, exponent)
  | fuel + 1, coefficient, exponent =>
      if coefficient % 10 = 0 then stripZeros fuel (coefficient / 10) (exponent + 1)
      else (coefficient, exponent)

/-- A finite decimal without trailing zeros; zero has the exponent 0. -/
def reduced (negative : Bool) (coefficient : Nat) (exponent : Int) : Decimal :=
  if coefficient = 0 then finite negative 0 0
  else
    let (coefficient, exponent) := stripZeros (numDigits coefficient) coefficient exponent
    finite negative coefficient exponent

/-- `normalize()`; `none` is the `Overflow` it raises. -/
def normalize : Decimal → Option Decimal
  | finite negative coefficient exponent =>
      if coefficient = 0 then some (finite negative 0 0)
      else (finalize coefficient exponent).map fun (c, e) => reduced negative c e
  | value => some value

/-- `a < b`; `none` is the `InvalidOperation` of a NaN. -/
def lt? : Decimal → Decimal → Option Bool
  | nan, _ | _, nan => none
  | infinity negative, infinity negative' => some (negative && !negative')
  | infinity negative, _ => some negative
  | _, infinity negative => some !negative
  | finite negative coefficient exponent, finite negative' coefficient' exponent' =>
      let low := min exponent exponent'
      let size := (coefficient * 10 ^ (exponent - low).toNat : Nat)
      let size' := (coefficient' * 10 ^ (exponent' - low).toNat : Nat)
      some (decide ((if negative then -(size : Int) else size) <
        if negative' then -(size' : Int) else size'))

/-! ## 4. The text reads back -/

/-- A character that the constructor reads as it stands. -/
structure Plain (c : Char) : Prop where
  space : isSpace c = false
  underscore : c ≠ '_'
  ascii : asciiDigit c = c

theorem plain_of_mem {c : Char} (h : c ∈ ['.', 'E', '+', '-']) : Plain c := by
  have hall : ∀ c ∈ ['.', 'E', '+', '-'], isSpace c = false ∧ c ≠ '_' ∧ asciiDigit c = c := by
    simp only [List.forall_mem_cons, List.not_mem_nil, false_imp_iff, implies_true, and_true]
    decide
  obtain ⟨hspace, hunderscore, hascii⟩ := hall c h
  exact ⟨hspace, hunderscore, hascii⟩

theorem digitChar_of_isDigit {c : Char} (h : c.isDigit = true) : ∃ d < 10, c = Nat.digitChar d := by
  have hbounds : 48 ≤ c.toNat ∧ c.toNat ≤ 57 := by
    simpa [Char.isDigit, UInt32.le_iff_toNat_le] using h
  refine ⟨c.toNat - 48, by omega, ?_⟩
  have hall : ∀ d < 10, Nat.digitChar d = Char.ofNat (d + 48) := by decide
  have hsum : c.toNat - 48 + 48 = c.toNat := by omega
  rw [hall _ (by omega), hsum, Char.ofNat_toNat]

theorem plain_of_isDigit {c : Char} (h : c.isDigit = true) : Plain c := by
  obtain ⟨d, hd, rfl⟩ := digitChar_of_isDigit h
  have hall : ∀ d < 10, isSpace (Nat.digitChar d) = false ∧ Nat.digitChar d ≠ '_' ∧
      asciiDigit (Nat.digitChar d) = Nat.digitChar d := by decide
  obtain ⟨hspace, hunderscore, hascii⟩ := hall d hd
  exact ⟨hspace, hunderscore, hascii⟩

theorem numericText_plain {cs : List Char} (h : ∀ c ∈ cs, Plain c) :
    numericText (String.ofList cs) = cs := by
  have hstrip : strip cs = cs := by
    apply stripWhere_eq_self
    · intro c hc
      simp [(h c (List.mem_of_mem_head? hc)).space]
    · intro c hc
      simp [(h c (List.mem_of_getLast? hc)).space]
  have hfilter : cs.filter (· ≠ '_') = cs :=
    List.filter_eq_self.mpr fun c hc => by simpa using (h c hc).underscore
  have hmap : cs.map asciiDigit = cs :=
    (List.map_congr_left fun c hc => (h c hc).ascii).trans (List.map_id' cs)
  rw [numericText, String.toList_ofList, hstrip, hfilter, hmap]

/-- Digits up to something that is no digit. -/
theorem span_digits {digits rest : List Char} (hdigits : ∀ c ∈ digits, c.isDigit = true)
    (hrest : ∀ c ∈ rest.head?, c.isDigit = false) :
    (digits ++ rest).span Char.isDigit = (digits, rest) := by
  rw [List.span_eq_takeWhile_dropWhile, List.takeWhile_append_of_pos hdigits,
    List.dropWhile_append_of_pos hdigits]
  cases rest with
  | nil => simp
  | cons c rest =>
      have hc := hrest c rfl
      simp [hc]

theorem isDigit_toDigits {n : Nat} {c : Char} (h : c ∈ Nat.toDigits 10 n) : c.isDigit = true :=
  Nat.isDigit_of_mem_toDigits (by decide) (by decide) h

theorem digitsValue_toDigits (n : Nat) : digitsValue (Nat.toDigits 10 n) = n :=
  Nat.ofDigitChars_ten_toDigits

/-- Zeros before a number. -/
theorem digitsValue_zeros (k n : Nat) :
    digitsValue (List.replicate k '0' ++ Nat.toDigits 10 n) = n := by
  rw [digitsValue, Nat.ofDigitChars_append, Nat.ofDigitChars_replicate_zero, Nat.mul_zero]
  exact digitsValue_toDigits n

theorem exponent?_signed (k : Int) : exponent? (signed k) = some k := by
  have hall : (Nat.toDigits 10 k.natAbs).all Char.isDigit = true :=
    List.all_eq_true.mpr fun _ => isDigit_toDigits
  by_cases hk : k < 0
  · simp only [signed, exponent?, hk, if_true, Nat.toDigits_ne_nil, hall, digitsValue_toDigits,
      ne_eq, not_false_eq_true, and_self, Option.map_some, Option.some.injEq]
    omega
  · simp only [signed, exponent?, hk, if_false, if_true, Nat.toDigits_ne_nil, hall,
      digitsValue_toDigits, ne_eq, not_false_eq_true, and_self, Option.some.injEq]
    omega

/-- The text of an exponent, unless it is 0. -/
def exponentChars (k : Int) : List Char := if k = 0 then [] else 'E' :: signed k

/-- What may follow the digits of a number: nothing, or the text of an exponent. -/
inductive ExponentText : List Char → Int → Prop
  | none : ExponentText [] 0
  | some {c : Char} {digits : List Char} {k : Int} (marker : c = 'e' ∨ c = 'E')
      (reads : exponent? digits = some k) : ExponentText (c :: digits) k

theorem exponentText_exponentChars (k : Int) : ExponentText (exponentChars k) k := by
  unfold exponentChars
  split
  · next hzero =>
      rw [hzero]
      exact .none
  · exact .some (Or.inr rfl) (exponent?_signed k)

theorem ExponentText.head {text : List Char} {k : Int} (h : ExponentText text k) :
    ∀ c ∈ text.head?, c.isDigit = false ∧ c ≠ '.' := by
  intro c hc
  cases h with
  | none => cases hc
  | some hmarker =>
      obtain rfl := Option.some.inj hc
      rcases hmarker with rfl | rfl <;> exact ⟨rfl, by decide⟩

/-- A number from its parts. -/
theorem number?_parts {whole part tail : List Char} {k : Int} (htail : ExponentText tail k)
    (hne : whole ≠ []) (hwhole : ∀ c ∈ whole, c.isDigit = true)
    (hpart : ∀ c ∈ part, c.isDigit = true) :
    number? (whole ++ (if part = [] then [] else '.' :: part) ++ tail) =
      some (digitsValue (whole ++ part), k - part.length) := by
  have hrest : ∀ c ∈ ((if part = [] then [] else '.' :: part) ++ tail).head?,
      c.isDigit = false := by
    intro c hc
    by_cases hempty : part = []
    · exact (htail.head c (by simpa [hempty] using hc)).1
    · obtain rfl : '.' = c := by simpa [hempty] using hc
      rfl
  have hfraction : fraction ((if part = [] then [] else '.' :: part) ++ tail) = (part, tail) := by
    by_cases hempty : part = []
    · rw [if_pos hempty, hempty, List.nil_append]
      unfold fraction
      split
      · exact absurd rfl (htail.head '.' rfl).2
      · rfl
    · rw [if_neg hempty]
      exact span_digits hpart fun c hc => (htail.head c hc).1
  rw [number?, List.append_assoc, span_digits hwhole hrest]
  dsimp only
  rw [hfraction]
  cases htail with
  | none => simp [hne]
  | some hmarker hreads => rcases hmarker with rfl | rfl <;> simp [hne, hreads]

theorem exponentChars_eq {left point : Int} :
    (if left = point then [] else 'E' :: signed (left - point)) = exponentChars (left - point) := by
  unfold exponentChars
  by_cases h : left = point
  · simp [h]
  · have hne : left - point ≠ 0 := by omega
    rw [if_neg h, if_neg hne]

/-- What a pointed number is: its digits, and where they end. -/
theorem pointed_digits (coefficient : Nat) {exponent point : Int}
    (hpoint : point = exponent + numDigits coefficient ∧ exponent ≤ 0 ∨ point = 1) :
    let parts := pointed (Nat.toDigits 10 coefficient) point
    parts.1 ≠ [] ∧ (∀ c ∈ parts.1, c.isDigit = true) ∧ (∀ c ∈ parts.2, c.isDigit = true) ∧
      digitsValue (parts.1 ++ parts.2) = coefficient ∧
      exponent + numDigits coefficient - point - parts.2.length = exponent := by
  have hne : Nat.toDigits 10 coefficient ≠ [] := Nat.toDigits_ne_nil
  have hlength : 0 < (Nat.toDigits 10 coefficient).length := Nat.length_toDigits_pos
  unfold numDigits at hpoint ⊢
  unfold pointed
  by_cases hlow : point ≤ 0
  · -- zeros before the digits
    obtain ⟨rfl, hexponent⟩ : point = exponent + (Nat.toDigits 10 coefficient).length ∧
        exponent ≤ 0 := by omega
    rw [if_pos hlow]
    refine ⟨by simp, by simp, ?_, ?_, by simp; omega⟩
    · intro c hc
      rcases List.mem_append.mp hc with hzero | hdigit
      · rw [List.eq_of_mem_replicate hzero]
        decide
      · exact isDigit_toDigits hdigit
    · exact digitsValue_zeros ((-(exponent + (Nat.toDigits 10 coefficient).length)).toNat + 1)
        coefficient
  · rw [if_neg hlow]
    by_cases hhigh : ((Nat.toDigits 10 coefficient).length : Int) ≤ point
    · rw [if_pos hhigh]
      have hzero : point.toNat - (Nat.toDigits 10 coefficient).length = 0 := by omega
      rw [hzero]
      refine ⟨by simp, ?_, by simp, ?_, by simp; omega⟩
      · intro c hc
        exact isDigit_toDigits (by simpa using hc)
      · simpa using digitsValue_toDigits coefficient
    · rw [if_neg hhigh]
      refine ⟨?_, ?_, ?_, ?_, ?_⟩
      · intro hnil
        have hcount := congrArg List.length hnil
        simp at hcount
        omega
      · exact fun c hc => isDigit_toDigits (List.mem_of_mem_take hc)
      · exact fun c hc => isDigit_toDigits (List.mem_of_mem_drop hc)
      · rw [List.take_append_drop]
        exact digitsValue_toDigits coefficient
      · rw [List.length_drop]
        omega

/-- The point of a text stands as `pointed_digits` asks. -/
theorem point_cases (coefficient : Nat) (exponent : Int) :
    let left := exponent + numDigits coefficient
    let point := if exponent ≤ 0 ∧ -6 < left then left else 1
    point = left ∧ exponent ≤ 0 ∨ point = 1 := by
  dsimp only
  split
  · next h => exact Or.inl ⟨rfl, h.1⟩
  · exact Or.inr rfl

/-- The text of a number: digits, perhaps a point and digits, perhaps an exponent. -/
theorem unsignedChars_parts (coefficient : Nat) (exponent : Int) :
    ∃ whole part k,
      unsignedChars coefficient exponent =
        whole ++ (if part = [] then [] else '.' :: part) ++ exponentChars k ∧
      whole ≠ [] ∧ (∀ c ∈ whole, c.isDigit = true) ∧ (∀ c ∈ part, c.isDigit = true) ∧
      digitsValue (whole ++ part) = coefficient ∧ k - part.length = exponent := by
  obtain ⟨hne, hwhole, hpart, hvalue, hlength⟩ :=
    pointed_digits coefficient (point_cases coefficient exponent)
  refine ⟨_, _, _, ?_, hne, hwhole, hpart, hvalue, hlength⟩
  unfold unsignedChars
  dsimp only
  rw [exponentChars_eq]
  rfl

theorem number?_unsignedChars (coefficient : Nat) (exponent : Int) :
    number? (unsignedChars coefficient exponent) = some (coefficient, exponent) := by
  obtain ⟨whole, part, k, htext, hne, hwhole, hpart, hvalue, hk⟩ :=
    unsignedChars_parts coefficient exponent
  rw [htext, number?_parts (exponentText_exponentChars k) hne hwhole hpart, hvalue, hk]

theorem mem_exponentChars {k : Int} {c : Char} (h : c ∈ exponentChars k) :
    c.isDigit = true ∨ c ∈ ['.', 'E', '+', '-'] := by
  by_cases hk : k = 0
  · simp [exponentChars, hk] at h
  · rcases List.mem_cons.mp (by simpa [exponentChars, hk] using h) with rfl | hsigned
    · exact Or.inr (by simp)
    · rcases List.mem_cons.mp hsigned with rfl | hdigit
      · by_cases hneg : k < 0 <;> simp [hneg]
      · exact Or.inl (isDigit_toDigits hdigit)

/-- The characters of a text. -/
theorem mem_unsignedChars {coefficient : Nat} {exponent : Int} {c : Char}
    (h : c ∈ unsignedChars coefficient exponent) :
    c.isDigit = true ∨ c ∈ ['.', 'E', '+', '-'] := by
  obtain ⟨whole, part, k, htext, _, hwhole, hpart, _, _⟩ :=
    unsignedChars_parts coefficient exponent
  rw [htext, List.mem_append, List.mem_append] at h
  rcases h with (hc | hc) | hc
  · exact Or.inl (hwhole c hc)
  · by_cases hempty : part = []
    · simp [hempty] at hc
    · rcases List.mem_cons.mp (by simpa [hempty] using hc) with rfl | hmem
      · exact Or.inr (by simp)
      · exact Or.inl (hpart c hmem)
  · exact mem_exponentChars hc

/-- A text begins with a digit. -/
theorem unsignedChars_head (coefficient : Nat) (exponent : Int) :
    ∃ c rest, unsignedChars coefficient exponent = c :: rest ∧ c.isDigit = true := by
  obtain ⟨whole, part, k, htext, hne, hwhole, _, _, _⟩ := unsignedChars_parts coefficient exponent
  obtain ⟨c, rest, rfl⟩ := List.exists_cons_of_ne_nil hne
  exact ⟨c, _, htext, hwhole c List.mem_cons_self⟩

/-- A number after its sign. -/
theorem decimal?_signed {negative : Bool} {body : List Char} {coefficient : Nat} {exponent : Int}
    (hplain : ∀ c ∈ body, Plain c) (hhead : ∃ c rest, body = c :: rest ∧ c.isDigit = true)
    (hnumber : number? body = some (coefficient, exponent)) (h : exact coefficient exponent) :
    decimal? (String.ofList ((if negative then ['-'] else []) ++ body)) =
      some (finite negative coefficient exponent) := by
  have hall : ∀ c ∈ (if negative then ['-'] else []) ++ body, Plain c := by
    intro c hc
    rcases List.mem_append.mp hc with hsign | hbody
    · cases negative
      · cases hsign
      · exact plain_of_mem (by simp [List.mem_singleton.mp hsign])
    · exact hplain c hbody
  have hsign : splitSign ((if negative then ['-'] else []) ++ body) = (negative, body) := by
    cases negative with
    | true => rfl
    | false =>
        obtain ⟨c, rest, hbody, hdigit⟩ := hhead
        have hminus : c ≠ '-' := by
          rintro rfl
          cases hdigit
        have hplus : c ≠ '+' := by
          rintro rfl
          cases hdigit
        simp [splitSign, hbody, hminus, hplus]
  rw [decimal?, numericText_plain hall, hsign]
  dsimp only
  rw [hnumber]
  exact if_pos h

/-- **The text of a finite decimal reads back.** -/
theorem decimal?_text {negative : Bool} {coefficient : Nat} {exponent : Int}
    (h : exact coefficient exponent) :
    decimal? (text (finite negative coefficient exponent)) =
      some (finite negative coefficient exponent) := by
  have hplain : ∀ c ∈ unsignedChars coefficient exponent, Plain c := by
    intro c hc
    rcases mem_unsignedChars hc with hdigit | hmem
    · exact plain_of_isDigit hdigit
    · exact plain_of_mem hmem
  exact decimal?_signed hplain (unsignedChars_head coefficient exponent)
    (number?_unsignedChars coefficient exponent) h

/-! ## 5. The normal form -/

/-- A finite decimal as `normalize` leaves it. -/
inductive Normal : Decimal → Prop
  | zero (negative : Bool) : Normal (finite negative 0 0)
  | digits (negative : Bool) {coefficient : Nat} {exponent : Int} (last : coefficient % 10 ≠ 0)
      (bounded : numDigits coefficient ≤ precision) (lower : etiny ≤ exponent)
      (upper : exponent + numDigits coefficient - 1 ≤ emax) :
      Normal (finite negative coefficient exponent)

theorem numDigits_pos (n : Nat) : 0 < numDigits n := Nat.length_toDigits_pos

theorem numDigits_le_iff {n k : Nat} (hk : 0 < k) : numDigits n ≤ k ↔ n < 10 ^ k :=
  Nat.length_toDigits_le_iff (by decide) hk

/-- Without its last digit a number is one digit shorter. -/
theorem numDigits_div {n : Nat} (h : 10 ≤ n) : numDigits n = numDigits (n / 10) + 1 := by
  rw [numDigits, Nat.toDigits_of_base_le (by decide) h, List.length_append]
  rfl

theorem halfEven_le (coefficient drop : Nat) : halfEven coefficient drop ≤ coefficient / 10 ^ drop + 1 := by
  unfold halfEven
  split
  · exact Nat.zero_le _
  · dsimp only
    split
    · exact Nat.le_succ _
    · split
      · exact Nat.le_refl _
      · omega

/-- Rounding away all but `k` digits leaves at most `10 ^ k`. -/
theorem halfEven_le_pow {coefficient drop k : Nat} (h : coefficient < 10 ^ (drop + k)) :
    halfEven coefficient drop ≤ 10 ^ k := by
  have hquotient : coefficient / 10 ^ drop < 10 ^ k := by
    apply Nat.div_lt_of_lt_mul
    rw [← Nat.pow_add]
    exact h
  exact (halfEven_le coefficient drop).trans hquotient

/-- What `finalize` leaves fits the context. -/
theorem finalize_fits {coefficient rounded : Nat} {exponent exponent' : Int}
    (h : finalize coefficient exponent = some (rounded, exponent')) :
    numDigits rounded ≤ precision ∧ etiny ≤ exponent' ∧
      exponent' + numDigits rounded - 1 ≤ emax := by
  unfold finalize at h
  dsimp only at h
  split at h
  · cases h
  next hover =>
  split at h
  · -- subnormal: fewer than 28 digits are left
    next hsub =>
    obtain ⟨rfl, rfl⟩ : halfEven coefficient (etiny - exponent).toNat = rounded ∧
        etiny = exponent' := by simpa using h
    have hcount : numDigits coefficient ≤ (etiny - exponent).toNat + 27 := by
      simp only [emin, etiny] at hsub ⊢
      omega
    have hle : halfEven coefficient (etiny - exponent).toNat ≤ 10 ^ 27 :=
      halfEven_le_pow ((numDigits_le_iff (by omega)).mp hcount)
    have hdigits : numDigits (halfEven coefficient (etiny - exponent).toNat) ≤ precision :=
      (numDigits_le_iff (by decide)).mpr (Nat.lt_of_le_of_lt hle (by decide))
    refine ⟨hdigits, Int.le_refl _, ?_⟩
    simp only [etiny, emax, precision] at hdigits ⊢
    omega
  next hsub =>
  have hlower : etiny ≤ exponent ∨ precision ≤ exponent + numDigits coefficient - etiny := by
    simp only [emin, etiny, precision] at hsub ⊢
    omega
  split at h
  · next hlong =>
    have hle : halfEven coefficient (numDigits coefficient - precision) ≤ 10 ^ precision := by
      apply halfEven_le_pow
      rw [Nat.sub_add_cancel (Nat.le_of_lt hlong)]
      exact (numDigits_le_iff (numDigits_pos _)).mp (Nat.le_refl _)
    generalize halfEven coefficient (numDigits coefficient - precision) = quotient at h hle
    by_cases hcarry : quotient = 10 ^ precision
    · -- the carry makes a digit more
      rw [if_pos hcarry] at h
      dsimp only at h
      split at h
      · cases h
      next hupper =>
      obtain ⟨rfl, rfl⟩ : 10 ^ (precision - 1) = rounded ∧
          exponent + (numDigits coefficient - precision : Nat) + 1 = exponent' := by simpa using h
      have hdigits : numDigits (10 ^ (precision - 1)) = precision := by decide +kernel
      rw [hdigits]
      simp only [etiny, emax, precision] at hlower hupper hlong ⊢
      omega
    · rw [if_neg hcarry] at h
      dsimp only at h
      split at h
      · cases h
      next hupper =>
      obtain ⟨rfl, rfl⟩ : quotient = rounded ∧
          exponent + (numDigits coefficient - precision : Nat) = exponent' := by simpa using h
      have hdigits : numDigits quotient ≤ precision :=
        (numDigits_le_iff (by decide)).mpr (Nat.lt_of_le_of_ne hle hcarry)
      simp only [etiny, emax, precision] at hlower hupper hlong hdigits ⊢
      omega
  · next hlong =>
    obtain ⟨rfl, rfl⟩ : coefficient = rounded ∧ exponent = exponent' := by simpa using h
    simp only [etiny, emax, precision] at hlower hover hlong ⊢
    omega

/-- Without trailing zeros a number that fits the context is normal. -/
theorem stripZeros_normal (negative : Bool) (fuel : Nat) {coefficient : Nat} {exponent : Int}
    (hpos : 0 < coefficient) (hfuel : numDigits coefficient ≤ fuel)
    (hdigits : numDigits coefficient ≤ precision) (hlower : etiny ≤ exponent)
    (hupper : exponent + numDigits coefficient - 1 ≤ emax) :
    Normal (finite negative (stripZeros fuel coefficient exponent).1
      (stripZeros fuel coefficient exponent).2) := by
  induction fuel generalizing coefficient exponent with
  | zero => exact absurd hfuel (Nat.not_le_of_lt (numDigits_pos _))
  | succ fuel ih =>
      rw [stripZeros]
      by_cases hlast : coefficient % 10 = 0
      · rw [if_pos hlast]
        have hten : 10 ≤ coefficient := by omega
        have hcount := numDigits_div hten
        apply ih <;> omega
      · rw [if_neg hlast]
        exact .digits negative hlast hdigits hlower hupper

/-- **`normalize` leaves a normal form.** -/
theorem normal_of_normalize {negative : Bool} {coefficient : Nat} {exponent : Int} {d : Decimal}
    (h : normalize (finite negative coefficient exponent) = some d) : Normal d := by
  rw [normalize] at h
  split at h
  · obtain rfl := Option.some.inj h
    exact .zero negative
  · obtain ⟨⟨rounded, exponent'⟩, hfinalize, rfl⟩ := Option.map_eq_some_iff.mp h
    obtain ⟨hdigits, hlower, hupper⟩ := finalize_fits hfinalize
    dsimp only [reduced]
    split
    · exact .zero negative
    · next hne =>
        exact stripZeros_normal negative _ (Nat.pos_of_ne_zero hne) (Nat.le_refl _) hdigits hlower
          hupper

/-- **A normal form is its own.** -/
theorem Normal.normalize {d : Decimal} (h : Normal d) : normalize d = some d := by
  cases h with
  | zero negative => rfl
  | @digits negative coefficient exponent hlast hbounded hlower hupper =>
      have hne : coefficient ≠ 0 := by
        rintro rfl
        exact hlast rfl
      have hfinalize : finalize coefficient exponent = some (coefficient, exponent) := by
        unfold finalize
        dsimp only
        rw [if_neg (by omega), if_neg (by omega), if_neg (by omega)]
      have hstrip : stripZeros (numDigits coefficient) coefficient exponent =
          (coefficient, exponent) := by
        obtain ⟨k, hk⟩ := Nat.exists_eq_succ_of_ne_zero (Nat.ne_of_gt (numDigits_pos coefficient))
        rw [hk, stripZeros, if_neg hlast]
      rw [Decimal.normalize, if_neg hne, hfinalize, Option.map_some]
      dsimp only [reduced]
      rw [if_neg hne, hstrip]

/-- The text of a normal form reads back. -/
theorem Normal.decimal?_text {d : Decimal} (h : Normal d) : decimal? (text d) = some d := by
  cases h with
  | zero negative => exact Decimal.decimal?_text (by decide)
  | digits negative hlast hbounded hlower hupper =>
      apply Decimal.decimal?_text
      simp only [exact, etiny, emax] at hlower hupper ⊢
      omega

end Decimal

end Helpdesk.Python
