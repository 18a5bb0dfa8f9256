/-
  File:      Helpdesk/Core/Rules.lean
  Subject:   The restricted JSON rule evaluator (apps/api/app/core/rules.py).

  `evaluate` ends in a truth value, in `InvalidRule`, or in the `TypeError`
  Python raises where the source puts no guard around an operator (an operator
  name or an `in` test on a value of the wrong type).
-/
import Helpdesk.Python.Json

namespace Helpdesk.Core

open Helpdesk.Python Json

inductive RuleError where
  | invalidRule (message : String)
  | typeError
  deriving DecidableEq, Repr

/-- The operators of `_OPERATORS`. -/
inductive Operator where
  | equals | notEquals | isIn | notIn | isNull | isNotNull | contains | startsWith
  | greaterThan | greaterThanOrEqual | lessThan | lessThanOrEqual
  deriving DecidableEq, Repr

/-- `_OPERATORS`, by name. -/
def operator? : String → Option Operator
  | "equals" => some .equals
  | "not_equals" => some .notEquals
  | "in" => some .isIn
  | "not_in" => some .notIn
  | "is_null" => some .isNull
  | "is_not_null" => some .isNotNull
  | "contains" => some .contains
  | "starts_with" => some .startsWith
  | "greater_than" => some .greaterThan
  | "greater_than_or_equal" => some .greaterThanOrEqual
  | "less_than" => some .lessThan
  | "less_than_or_equal" => some .lessThanOrEqual
  | _ => none

/-- `operator not in _OPERATORS` for any JSON value: an unhashable one (a list or
    a dict) raises `TypeError`. -/
def operatorOf : Json → Except RuleError Operator
  | .str name =>
      match operator? name with
      | some op => .ok op
      | none => .error (.invalidRule "Rule field or operator is unsupported.")
  | .list _ => .error .typeError
  | .dict _ => .error .typeError
  | _ => .error (.invalidRule "Rule field or operator is unsupported.")

/-- `expected in actual` for the four container types the source admits (JSON
    has two of them). -/
def containsOp (actual expected : Json) : Except RuleError Bool :=
  match actual, expected with
  | .str a, .str e => .ok (a.toList.tails.any e.toList.isPrefixOf)
  | .str _, _ => .error .typeError
  | .list items, e => .ok (pyIn e items)
  | _, _ => .ok false

/-- The comparison operators: `TypeError` is caught and counts as false. `>=` and
    `<=` of values that compare at all are `<` or `==`. -/
def compareOp (op : Operator) (actual expected : Json) : Bool :=
  match op with
  | .greaterThan => (pyLt expected actual).getD false
  | .greaterThanOrEqual =>
      (pyLt expected actual).elim false fun lt => lt || pyEq actual expected
  | .lessThan => (pyLt actual expected).getD false
  | _ => (pyLt actual expected).elim false fun lt => lt || pyEq actual expected

/-- The last part of `evaluate`: one leaf whose field is available. -/
def applyOperator (op : Operator) (actual expected : Json) : Except RuleError Bool :=
  match op with
  | .isNull => .ok (pyEq actual .null)
  | .isNotNull => .ok (!pyEq actual .null)
  | .equals => .ok (pyEq actual expected)
  | .notEquals => .ok (!pyEq actual expected)
  | .isIn =>
      match expected with
      | .list items => .ok (pyIn actual items)
      | _ => .ok false
  | .notIn =>
      match expected with
      | .list items => .ok (!pyIn actual items)
      | _ => .ok false
  | .contains => containsOp actual expected
  | .startsWith =>
      match actual, expected with
      | .str a, .str e => .ok (e.toList.isPrefixOf a.toList)
      | _, _ => .ok false
  | op => .ok (compareOp op actual expected)

/-- A rule leaf: its properties, its field, its operator. -/
def evaluateLeaf (items : List (String × Json)) (values : List (String × Json)) :
    Except RuleError Bool := do
  let keys := items.map (·.1)
  if !(keys.contains "field" && keys.contains "operator") ||
      !(keys.all fun key => ["field", "operator", "value"].contains key) then
    throw (.invalidRule "Rule leaf contains unsupported properties.")
  match getD items "field" with
  | .str field =>
      let op ← operatorOf (getD items "operator")
      match lookup field values with
      | none =>
          throw (.invalidRule "Rule field is not available to deterministic evaluation.")
      | some actual => applyOperator op actual (getD items "value")
  | _ => throw (.invalidRule "Rule field or operator is unsupported.")

mutual

/-- `evaluate(rule, values)`. -/
def evaluate (rule : Json) (values : List (String × Json)) : Except RuleError Bool :=
  match rule with
  | .null => .ok true
  | .list items => evaluateAll items values
  | .dict [] => .ok true
  | .dict [(key, .list items)] =>
      if key = "all" then evaluateAll items values
      else if key = "any" then evaluateAny items values
      else .error (.invalidRule "Rule leaf contains unsupported properties.")
  | .dict items => evaluateLeaf items values
  | _ => .error (.invalidRule "Rules must be JSON objects or arrays.")

/-- `all(...)` stops at the first false item. -/
def evaluateAll (items : List Json) (values : List (String × Json)) : Except RuleError Bool :=
  match items with
  | [] => .ok true
  | item :: rest => do if ← evaluate item values then evaluateAll rest values else pure false

/-- `any(...)` stops at the first true item. -/
def evaluateAny (items : List Json) (values : List (String × Json)) : Except RuleError Bool :=
  match items with
  | [] => .ok false
  | item :: rest => do if ← evaluate item values then pure true else evaluateAny rest values

end

end Helpdesk.Core
