/-
  File:      Helpdesk/Python/Float.lean
  Subject:   Python's `float` (IEEE binary64), as JSON text reads and prints it.

  A finite float is the dyadic number `mant * 2 ^ exp`; minus zero, the
  infinities and NaN are values of their own. `ofRat` rounds to the nearest
  float (ties to even), `repr` prints the shortest decimal that reads back as
  the same float, in the layout of Python's `repr`.
-/
import Mathlib.Data.Nat.Log
import Mathlib.Data.Rat.Floor

namespace Helpdesk.Python

inductive PyFloat where
  | finite (mant exp : Int)
  | negZero
  | inf (negative : Bool)
  | nan
  deriving DecidableEq, Repr

namespace PyFloat

/-- The rational value of a finite float; the others have none. -/
def value? : PyFloat → Option ℚ
  | finite m e => some (m * (2 : ℚ) ^ e)
  | negZero => some 0
  | inf _ => none
  | nan => none


/-- The largest `e` with `base ^ e ≤ x`, for positive `x`, from the digit counts
    of numerator and denominator in that base. -/
def floorLog (base : Nat) (x : ℚ) : Int :=
  let e : Int := (Nat.log base x.num.toNat : Int) - Nat.log base x.den
  if (base : ℚ) ^ e ≤ x then e else e - 1

/-- Rounding to the nearest integer, ties to the even one. -/
def roundHalfEven (x : ℚ) : Int :=
  let low := x.floor
  let rest := x - low
  if rest < 1 / 2 then low
  else if 1 / 2 < rest then low + 1
  else if low % 2 = 0 then low else low + 1

/-- The float nearest to a rational number. -/
def ofRat (x : ℚ) : PyFloat :=
  if x = 0 then finite 0 0
  else
    let e := max (floorLog 2 |x| - 52) (-1074)
    let m := roundHalfEven (|x| / (2 : ℚ) ^ e)
    if (2 : ℚ) ^ (1024 : Int) ≤ m * (2 : ℚ) ^ e then inf (decide (x < 0))
    else if m = 0 then (if x < 0 then negZero else finite 0 0)
    else finite (if x < 0 then -m else m) e

/-- The `k`-digit decimals `(digits, exponent of the last digit)` around `x`, the
    nearer one first. -/
def candidates (x : ℚ) (k : Nat) : List (Int × Int) :=
  let last := floorLog 10 x - k + 1
  let low := (x / (10 : ℚ) ^ last).floor
  if roundHalfEven (x / (10 : ℚ) ^ last) = low then [(low, last), (low + 1, last)]
  else [(low + 1, last), (low, last)]

/-- The shortest decimal that rounds to the positive float of value `x`: `fuel`
    bounds the number of digits, of which seventeen are always enough. -/
def shortest (x : ℚ) : Nat → Nat → Int × Int
  | 0, k => ((x / (10 : ℚ) ^ (floorLog 10 x - k + 1)).floor, floorLog 10 x - k + 1)
  | fuel + 1, k =>
      match (candidates x k).find? fun c => (ofRat (c.1 * (10 : ℚ) ^ c.2)).value? = some x with
      | some c => c
      | none => shortest x fuel (k + 1)

def zeros (n : Nat) : String := String.ofList (List.replicate n '0')

/-- The layout of `repr`: `ds` holds the digits, `point` the position of the
    decimal point after the first digit's left edge. -/
def layout (ds : List Char) (point : Int) : String :=
  if point ≤ -4 ∨ 16 < point then
    let e := point - 1
    let digits := (toString e.natAbs)
    let padded := if digits.length < 2 then "0" ++ digits else digits
    let head := String.ofList (ds.take 1)
    let tail := if ds.length ≤ 1 then "" else "." ++ String.ofList (ds.drop 1)
    head ++ tail ++ "e" ++ (if e < 0 then "-" else "+") ++ padded
  else if point ≤ 0 then "0." ++ zeros (-point).toNat ++ String.ofList ds
  else if (ds.length : Int) ≤ point then
    String.ofList ds ++ zeros (point - ds.length).toNat ++ ".0"
  else String.ofList (ds.take point.toNat) ++ "." ++ String.ofList (ds.drop point.toNat)

/-- `repr` of a float. -/
def repr : PyFloat → String
  | negZero => "-0.0"
  | inf negative => if negative then "-inf" else "inf"
  | nan => "nan"
  | finite m e =>
      if m = 0 then "0.0"
      else
        let x := |(m : ℚ) * (2 : ℚ) ^ e|
        let c := shortest x 17 1
        let ds := Nat.toDigits 10 c.1.toNat
        -- the candidate above a run of nines is a power of ten: its zeros are no digits
        let significant := (ds.reverse.dropWhile (· = '0')).reverse
        (if m < 0 then "-" else "") ++ layout significant (ds.length + c.2)

end PyFloat

end Helpdesk.Python
