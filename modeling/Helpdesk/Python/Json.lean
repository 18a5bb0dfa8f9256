/-
  File:      Helpdesk/Python/Json.lean
  Subject:   JSON values as Python holds them (`None`, `bool`, `int`, `float`,
             `str`, `list`, `dict`), and the operators the services use on them.

  A dict is the list of its items in insertion order, each key once. The
  operators are Python's, not the structural ones of the type:

  * `pyEq` is `==`: `True == 1 == 1.0`, lists elementwise, dicts whatever the
    order of their keys;
  * `pyIn` is membership in a list;
  * `pyLt` is `<`, with `none` where Python raises `TypeError`;
  * `pyStr` is `str`.
-/
import Helpdesk.Python.Float

namespace Helpdesk.Python

inductive Json where
  | null
  | bool (b : Bool)
  | int (n : Int)
  | float (x : PyFloat)
  | str (s : String)
  | list (items : List Json)
  | dict (items : List (String × Json))
  deriving Repr

namespace Json

/-! ## 1. Lookups -/

/-- `d.get(key)` on the items of a dict, `none` where the key is absent. -/
def lookup (key : String) : List (String × Json) → Option Json
  | [] => none
  | (k, v) :: rest => if k = key then some v else lookup key rest

/-- `value.get(key)` with Python's default `None`. -/
def getD (items : List (String × Json)) (key : String) : Json := (lookup key items).getD null

theorem lookup_eq_none_iff {key : String} {items : List (String × Json)} :
    lookup key items = none ↔ key ∉ items.map (·.1) := by
  induction items with
  | nil => simp [lookup]
  | cons item items ih =>
      by_cases hkey : item.1 = key
      · simp [lookup, hkey]
      · have hne : key ≠ item.1 := fun h => hkey h.symm
        simpa [lookup, hkey, hne] using ih

theorem mem_of_lookup {key : String} {value : Json} {items : List (String × Json)}
    (h : lookup key items = some value) : (key, value) ∈ items := by
  induction items with
  | nil => cases h
  | cons item items ih =>
      rw [lookup] at h
      split at h
      · next hkey =>
          cases h
          rw [← hkey]
          exact List.mem_cons_self
      · exact List.mem_cons_of_mem _ (ih h)

theorem lookup_of_mem {key : String} {value : Json} {items : List (String × Json)}
    (hnodup : (items.map (·.1)).Nodup) (h : (key, value) ∈ items) :
    lookup key items = some value := by
  induction items with
  | nil => cases h
  | cons item items ih =>
      obtain ⟨hnot, hrest⟩ := List.nodup_cons.mp hnodup
      rcases List.mem_cons.mp h with rfl | hmem
      · simp [lookup]
      · have hne : item.1 ≠ key := by
          rintro rfl
          exact hnot (List.mem_map.mpr ⟨_, hmem, rfl⟩)
        rw [lookup, if_neg hne]
        exact ih hrest hmem

/-! ## 2. Equality -/

/-- The exact value of a Python number, as `mant * 2 ^ exp`; booleans are numbers. -/
def number? : Json → Option PyFloat
  | bool b => some (.finite (if b then 1 else 0) 0)
  | int n => some (.finite n 0)
  | float x => some x
  | _ => none

/-- `a * 2 ^ e ≤ b * 2 ^ f`, compared over the smaller exponent. -/
def scaledLe (a e b f : Int) : Bool :=
  a * 2 ^ (e - min e f).toNat ≤ b * 2 ^ (f - min e f).toNat

/-- `<` between numbers; a NaN is smaller than nothing. -/
def numLt (x y : PyFloat) : Bool :=
  match x, y with
  | .nan, _ => false
  | _, .nan => false
  | .inf n, .inf m => n && !m
  | .inf n, _ => n
  | _, .inf m => !m
  | .finite a e, .finite b f => !scaledLe b f a e
  | .finite a _, .negZero => a < 0
  | .negZero, .finite b _ => 0 < b
  | .negZero, .negZero => false

/-- `==` between numbers; a NaN equals nothing. -/
def numEq (x y : PyFloat) : Bool :=
  match x, y with
  | .nan, _ => false
  | _, .nan => false
  | x, y => !numLt x y && !numLt y x

mutual

/-- Python's `==` on JSON values. -/
def pyEq : Json → Json → Bool
  | null, null => true
  | str a, str b => a == b
  | list as, list bs => pyEqList as bs
  | dict as, dict bs => as.length == bs.length && pyEqItems as bs
  | bool a, b => numberEq (.finite (if a then 1 else 0) 0) b
  | int a, b => numberEq (.finite a 0) b
  | float a, b => numberEq a b
  | _, _ => false

def pyEqList : List Json → List Json → Bool
  | [], [] => true
  | a :: as, b :: bs => pyEq a b && pyEqList as bs
  | _, _ => false

/-- Every item of the first dict is in the second with an equal value. -/
def pyEqItems : List (String × Json) → List (String × Json) → Bool
  | [], _ => true
  | (k, a) :: rest, bs =>
      (match lookup k bs with
        | some b => pyEq a b
        | none => false) && pyEqItems rest bs

/-- A number against any value. -/
def numberEq (x : PyFloat) (b : Json) : Bool :=
  match number? b with
  | some y => numEq x y
  | none => false

end

/-- `value in list`. -/
def pyIn (value : Json) (items : List Json) : Bool := items.any fun item => pyEq value item

/-- `value in (None, "", [])`. -/
def isBlank (value : Json) : Bool := pyIn value [null, str "", list []]

/-! ## 3. Order -/

mutual

/-- Python's `<`; `none` is the `TypeError` of values that have no order. -/
def pyLt : Json → Json → Option Bool
  | str a, str b => some (decide (a < b))
  | list as, list bs => pyLtList as bs
  | bool a, b => (number? b).map (numLt (.finite (if a then 1 else 0) 0))
  | int a, b => (number? b).map (numLt (.finite a 0))
  | float a, b => (number? b).map (numLt a)
  | _, _ => none

/-- Lists compare at their first unequal items, a proper prefix is smaller. -/
def pyLtList : List Json → List Json → Option Bool
  | [], [] => some false
  | [], _ :: _ => some true
  | _ :: _, [] => some false
  | a :: as, b :: bs => if pyEq a b then pyLtList as bs else pyLt a b

end

/-! ## 4. Text -/

/-- One character inside the quotes of a string's `repr`. -/
def reprChar (quote c : Char) : String :=
  if c = quote ∨ c = '\\' then String.ofList ['\\', c]
  else if c = '\n' then "\\n"
  else if c = '\r' then "\\r"
  else if c = '\t' then "\\t"
  else String.ofList [c]

/-- `repr` of a string: single quotes unless only they occur in it. -/
def reprString (s : String) : String :=
  let quote := if s.toList.contains '\'' && !s.toList.contains '"' then '"' else '\''
  let body := s.toList.foldl (fun text c => text ++ reprChar quote c) ""
  String.ofList [quote] ++ body ++ String.ofList [quote]

mutual

/-- `repr` of a JSON value, as it stands inside a list or a dict. -/
def pyRepr : Json → String
  | null => "None"
  | bool b => if b then "True" else "False"
  | int n => toString n
  | float x => x.repr
  | str s => reprString s
  | list items => "[" ++ pyReprList items ++ "]"
  | dict items => "\x7b" ++ pyReprItems items ++ "\x7d"

def pyReprList : List Json → String
  | [] => ""
  | [a] => pyRepr a
  | a :: rest => pyRepr a ++ ", " ++ pyReprList rest

def pyReprItems : List (String × Json) → String
  | [] => ""
  | [(k, a)] => reprString k ++ ": " ++ pyRepr a
  | (k, a) :: rest => reprString k ++ ": " ++ pyRepr a ++ ", " ++ pyReprItems rest

end

/-- Python's `str`: a string is itself, everything else its `repr`. -/
def pyStr : Json → String
  | str s => s
  | value => pyRepr value

end Json

end Helpdesk.Python
