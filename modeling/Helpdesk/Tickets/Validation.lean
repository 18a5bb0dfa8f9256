/-
  File:      Helpdesk/Tickets/Validation.lean
  Subject:   The check of a draft's custom fields against its request form
             (apps/api/app/tickets/validation.py and apps/api/app/catalog/rules.py).

  A form is the list of its records, one for each option of a field: the records of one
  code are the field, and its properties are those of the first. The data types are the
  ones the check constraint of the table admits, so the last `raise` of `_normalize` is
  out of reach. Python's JSON parsers refuse integers of more than 4300 digits, whose
  text Python would not write.
-/
import Helpdesk.Lib.Fallible
import Helpdesk.Python.Isoformat
import Helpdesk.Python.JsonText

namespace Helpdesk.Tickets

open Helpdesk.Python Json

/-! ## 1. Forms -/

inductive DataType where
  | text | longText | number | date | timestamp | boolean | singleSelect | multiSelect
  | user | group | service | module_ | asset | jsonObject
  deriving DecidableEq, Repr

/-- A row of `config.custom_field_option`. -/
structure OptionRow where
  optionId : Uuid
  optionCode : String
  deriving DecidableEq, Repr

/-- A row of the form: the columns of an option are null together. -/
structure FormFieldRecord where
  fieldCode : String
  dataType : DataType
  required : Bool
  validation : Json
  condition : Json
  option : Option OptionRow

structure CustomFieldInput where
  fieldCode : String
  value : Json

/-- The records of one field, the first of them first. -/
structure FieldGroup where
  field : FormFieldRecord
  more : List FormFieldRecord

namespace FieldGroup

def code (group : FieldGroup) : String := group.field.fieldCode

def records (group : FieldGroup) : List FormFieldRecord := group.field :: group.more

/-- `{record.option_code for record in records if record.option_code is not None}`. -/
def options (group : FieldGroup) : List String :=
  (group.records.filterMap (·.option)).map (·.optionCode)

end FieldGroup

/-- `grouped.setdefault(record.field_code, []).append(record)`. -/
def addRecord (record : FormFieldRecord) : List FieldGroup → List FieldGroup
  | [] => [⟨record, []⟩]
  | group :: rest =>
      if group.code = record.fieldCode then { group with more := group.more ++ [record] } :: rest
      else group :: addRecord record rest

def grouped (records : List FormFieldRecord) : List FieldGroup :=
  records.foldl (fun groups record => addRecord record groups) []

/-! ## 2. Conditions -/

/-- An exception that is not caught on the way: pydantic's for a condition that is no rule,
    or one of the decimal context. -/
inductive Raised where
  | invalidCondition
  | overflow
  | invalidOperation
  deriving DecidableEq, Repr

inductive ConditionOperator where
  | equals | notEquals | in_ | notIn | isEmpty | isNotEmpty
  deriving DecidableEq, Repr

def conditionOperator? : Json → Option ConditionOperator
  | .str "equals" => some .equals
  | .str "not_equals" => some .notEquals
  | .str "in" => some .in_
  | .str "not_in" => some .notIn
  | .str "is_empty" => some .isEmpty
  | .str "is_not_empty" => some .isNotEmpty
  | _ => none

structure ConditionPredicate where
  field : String
  operator : ConditionOperator
  value : Json

/-- `Scalar`. -/
def isScalar : Json → Bool
  | .list _ => false
  | .dict _ => false
  | _ => true

/-- The pattern of a field's name. -/
def isFieldName (name : String) : Bool :=
  match name.toList with
  | [] => false
  | c :: cs => c.isAlpha && cs.length ≤ 99 && cs.all fun c => c.isAlphanum || c = '_'

/-- `validate_operator_value`, after the type of the value. -/
def acceptsValue : ConditionOperator → Json → Bool
  | .in_, .list items | .notIn, .list items =>
      items.all isScalar && items ≠ [] && items.length ≤ 100
  | .in_, _ | .notIn, _ => false
  | .isEmpty, value | .isNotEmpty, value => match value with
      | .null => true
      | _ => false
  | .equals, value | .notEquals, value => isScalar value

/-- `ConditionPredicate.model_validate`. -/
def predicate? : Json → Option ConditionPredicate
  | .dict items =>
      match lookup "field" items, (lookup "operator" items).bind conditionOperator? with
      | some (.str field), some operator =>
          if (items.map (·.1)).all (["field", "operator", "value"].contains ·) ∧
              isFieldName field ∧ acceptsValue operator (getD items "value") then
            some ⟨field, operator, getD items "value"⟩
          else none
      | _, _ => none
  | _ => none

/-- The value of `all` or of `any`; the outer `none` is a validation error. -/
def predicates? : Json → Option (Option (List ConditionPredicate))
  | .null => some none
  | .list items => if items.length ≤ 20 then (items.mapM predicate?).map some else none
  | _ => none

inductive ConditionalRule where
  | all (predicates : List ConditionPredicate)
  | any (predicates : List ConditionPredicate)

/-- `ConditionalRule.model_validate`. -/
def conditionalRule? : Json → Option ConditionalRule
  | .dict items =>
      if (items.map (·.1)).all (["all", "any"].contains ·) then
        match predicates? (getD items "all"), predicates? (getD items "any") with
        | some (some all), some none => if all.isEmpty then none else some (.all all)
        | some none, some (some any) => if any.isEmpty then none else some (.any any)
        | _, _ => none
      else none
  | _ => none

/-- `parse_conditional_rule`. -/
def parseConditionalRule (value : Json) : Except Raised (Option ConditionalRule) :=
  if pyIn value [.dict [], .null] then .ok none
  else match conditionalRule? value with
    | some rule => .ok (some rule)
    | none => .error .invalidCondition

/-- `_predicate_matches`. -/
def predicateMatches (predicate : ConditionPredicate) (actual : Json) : Bool :=
  match predicate.operator, predicate.value with
  | .isEmpty, _ => isBlank actual
  | .isNotEmpty, _ => !isBlank actual
  | .equals, value => pyEq actual value
  | .notEquals, value => !pyEq actual value
  | .in_, .list expected => pyIn actual expected
  | .notIn, .list expected => !pyIn actual expected
  -- an `assert` of the source that `acceptsValue` grants
  | .in_, _ | .notIn, _ => false

/-- `_condition_applies`. -/
def conditionApplies (condition : Json) (values : List (String × Json)) : Except Raised Bool := do
  match ← parseConditionalRule condition with
  | none => return true
  | some (.all predicates) =>
      return predicates.all fun p => predicateMatches p (getD values p.field)
  | some (.any predicates) =>
      return predicates.any fun p => predicateMatches p (getD values p.field)

/-! ## 3. `_normalize` -/

/-- How `_normalize` fails: with a `ValueError`, which is caught, or with the `Overflow` of
    a decimal, which is not. -/
inductive NormalizeError where
  | valueError (message : String)
  | overflow
  deriving DecidableEq, Repr

def normalizeNumber (value : Json) : Except NormalizeError Json :=
  match value with
  | .bool _ => .error (.valueError "Value must be a number.")
  | value =>
      match Decimal.decimal? (pyStr value) with
      | none => .error (.valueError "Value must be a number.")
      | some (.finite negative coefficient exponent) =>
          match Decimal.normalize (.finite negative coefficient exponent) with
          | some normal => .ok (.str normal.text)
          | none => .error .overflow
      | some _ => .error (.valueError "Value must be a finite number.")

def normalizeBoolean (value : Json) : Except NormalizeError Json :=
  match value with
  | .bool b => .ok (.bool b)
  | .str s =>
      if lower s = "true" ∨ lower s = "false" then .ok (.bool (lower s = "true"))
      else .error (.valueError "Value must be a boolean.")
  | _ => .error (.valueError "Value must be a boolean.")

def normalizeDate (value : Json) : Except NormalizeError Json :=
  match date? (pyStr value) with
  | some date => .ok (.str date.isoformat)
  | none => .error (.valueError "Value must be an ISO 8601 date.")

/-- `str(value).replace("Z", "+00:00")`. -/
def zuluText (value : Json) : String :=
  String.ofList (replace ['Z'] "+00:00".toList (pyStr value).toList)

def normalizeTimestamp (value : Json) : Except NormalizeError Json :=
  match datetime? (zuluText value) with
  | none => .error (.valueError "Value must be an ISO 8601 datetime.")
  | some ⟨_, _, none⟩ => .error (.valueError "Datetime must include a timezone.")
  | some ⟨date, time, some offset⟩ => .ok (.str (AwareDatetime.mk date time offset).isoformat)

def normalizeReference (value : Json) : Except NormalizeError Json :=
  match uuid? (pyStr value) with
  | some id => .ok (.str (uuidText id))
  | none => .error (.valueError "Value must be a UUID reference.")

def normalizeSelection (options : List String) (value : Json) : Except NormalizeError Json :=
  match value with
  | .str s =>
      if s ∈ options then .ok (.str s)
      else .error (.valueError "Value is not an active option.")
  | _ => .error (.valueError "Value is not an active option.")

def string? : Json → Option String
  | .str s => some s
  | _ => none

/-- `sorted(set(value))`. -/
def sortedSet (codes : List String) : List String := codes.dedup.insertionSort (· ≤ ·)

def normalizeSelections (options : List String) (value : Json) : Except NormalizeError Json :=
  match value with
  | .list items =>
      match items.mapM string? with
      | none => .error (.valueError "Value must be a list of options.")
      | some codes =>
          if (sortedSet codes).length ≠ codes.length then
            .error (.valueError "Option values must not be duplicated.")
          else if ¬ sortedSet codes ⊆ options then
            .error (.valueError "Value contains an inactive or unknown option.")
          else .ok (.list ((sortedSet codes).map .str))
  | _ => .error (.valueError "Value must be a list of options.")

def normalizeObject (value : Json) : Except NormalizeError Json :=
  match value with
  | .dict items =>
      if 20000 < (dumps (.dict items)).length then .error (.valueError "Value is too large.")
      else .ok (.dict items)
  | _ => .error (.valueError "Value must be an object.")

/-- `_normalize`. -/
def normalize (group : FieldGroup) (value : Json) : Except NormalizeError Json :=
  match group.field.dataType with
  | .text =>
      match value with
      | .str s => .ok (.str (collapseText s))
      | _ => .error (.valueError "Value must be text.")
  | .longText =>
      match value with
      | .str s => .ok (.str (stripText s))
      | _ => .error (.valueError "Value must be text.")
  | .number => normalizeNumber value
  | .boolean => normalizeBoolean value
  | .date => normalizeDate value
  | .timestamp => normalizeTimestamp value
  | .user | .group | .service | .module_ | .asset => normalizeReference value
  | .singleSelect => normalizeSelection group.options value
  | .multiSelect => normalizeSelections group.options value
  | .jsonObject => normalizeObject value

/-! ## 4. `_validate_bounds` -/

/-- `isinstance(value, int)`: a boolean is one. -/
def int? : Json → Option Int
  | .int n => some n
  | .bool b => some (if b then 1 else 0)
  | _ => none

/-- `len(value)` of a text or a list. -/
def length? : Json → Option Nat
  | .str s => some s.length
  | .list items => some items.length
  | _ => none

def isList : Json → Bool
  | .list _ => true
  | _ => false

/-- A limit on a length: the message where `crosses length limit` holds. -/
def lengthMessage (validation : List (String × Json)) (key : String) (length : Option Nat)
    (crosses : Int → Int → Bool) (before after : String) : List String :=
  match int? (getD validation key), length with
  | some limit, some length =>
      if crosses length limit then [before ++ pyStr (getD validation key) ++ after] else []
  | _, _ => []

/-- `Decimal(str(limit))`. -/
def limitOf (limit : Json) : Except Raised Decimal :=
  match Decimal.decimal? (pyStr limit) with
  | some d => .ok d
  | none => .error .invalidOperation

/-- `a < b` between decimals. -/
def less (a b : Decimal) : Except Raised Bool :=
  match Decimal.lt? a b with
  | some b => .ok b
  | none => .error .invalidOperation

/-- The limits of a number. -/
def numberMessages (validation : List (String × Json)) (value : Json) :
    Except Raised (List String) := do
  let numeric ← limitOf value
  let low ← match getD validation "minimum" with
    | .null => pure []
    | minimum => do
        if ← less numeric (← limitOf minimum) then
          pure ["Value must be at least " ++ pyStr minimum ++ "."]
        else pure []
  let high ← match getD validation "maximum" with
    | .null => pure []
    | maximum => do
        if ← less (← limitOf maximum) numeric then
          pure ["Value must be at most " ++ pyStr maximum ++ "."]
        else pure []
  return low ++ high

/-- `field.validation if isinstance(field.validation, dict) else {}`. -/
def limits : Json → List (String × Json)
  | .dict items => items
  | _ => []

/-- `_validate_bounds`: the messages under the key of the field. -/
def validateBounds (field : FormFieldRecord) (value : Json) : Except Raised (List String) := do
  let validation := limits field.validation
  let length := length? value
  let items := if isList value then length else none
  let messages :=
    lengthMessage validation "minimum_length" length (fun n limit => n < limit)
      "Value must contain at least " " characters." ++
    lengthMessage validation "maximum_length" length (fun n limit => limit < n)
      "Value must contain at most " " characters." ++
    lengthMessage validation "minimum_items" items (fun n limit => n < limit)
      "Select at least " " options." ++
    lengthMessage validation "maximum_items" items (fun n limit => limit < n)
      "Select at most " " options."
  if field.dataType = .number then
    return messages ++ (← numberMessages validation value)
  else
    return messages

/-! ## 5. `validate_and_normalize` -/

/-- How the check fails: with a `ValidationError` and its field errors, or with an
    exception it does not catch. -/
inductive ValidateError where
  | validation (message : String) (fieldErrors : List (String × List String))
  | raised (what : Raised)
  deriving DecidableEq, Repr

/-- `f"custom_fields.{code}"`. -/
def errorKey (code : String) : String := "custom_fields." ++ code

/-- `errors.setdefault(key, []).append(message)`. -/
def addError (key message : String) : List (String × List String) → List (String × List String)
  | [] => [(key, [message])]
  | (k, messages) :: rest =>
      if k = key then (k, messages ++ [message]) :: rest
      else (k, messages) :: addError key message rest

/-- The supplied values, the first of each code, and the codes of the others. -/
structure Supplied where
  raw : List (String × Json)
  repeated : List String

def Supplied.add (state : Supplied) (item : CustomFieldInput) : Supplied :=
  match lookup item.fieldCode state.raw with
  | some _ => { state with repeated := state.repeated ++ [item.fieldCode] }
  | none => { state with raw := state.raw ++ [(item.fieldCode, item.value)] }

def supply (supplied : List CustomFieldInput) : Supplied := supplied.foldl Supplied.add ⟨[], []⟩

/-- What the loop leaves of one field: messages under its key, and its entry. -/
structure FieldResult where
  messages : List String
  entry : Option Json

/-- The body of the loop over the fields. -/
def validateField (requireComplete : Bool) (raw : List (String × Json)) (group : FieldGroup) :
    Except Raised FieldResult := do
  let value := getD raw group.code
  if ← conditionApplies group.field.condition raw then
    if isBlank value then
      let missing := group.field.required && requireComplete
      return ⟨if missing then ["Field is required."] else [], some .null⟩
    else match normalize group value with
      | .error (.valueError message) => return ⟨[message], none⟩
      | .error .overflow => throw .overflow
      | .ok result => return ⟨← validateBounds group.field result, some result⟩
  else
    let given := (lookup group.code raw).isSome && !isBlank value
    return ⟨if given then ["Field is not applicable for the supplied values."] else [], none⟩

/-- Every error of the check, in the order they are noted, under the code of its field. -/
def noted (supplied : Supplied) (groups : List FieldGroup) (results : List FieldResult) :
    List (String × String) :=
  supplied.repeated.map (fun code => (code, "Field must be supplied only once.")) ++
  ((supplied.raw.map (·.1)).filter (fun code => code ∉ groups.map (·.code))).map
    (fun code => (code, "Unknown field.")) ++
  (groups.zip results).flatMap fun (group, result) =>
    result.messages.map fun message => (group.code, message)

/-- `normalized`. -/
def entries (groups : List FieldGroup) (results : List FieldResult) : List (String × Json) :=
  (groups.zip results).filterMap fun (group, result) =>
    result.entry.map fun value => (group.code, value)

/-- `validate_and_normalize`. -/
def validateAndNormalize (records : List FormFieldRecord) (supplied : List CustomFieldInput)
    (requireComplete : Bool) : Except ValidateError (List (String × Json)) :=
  let supplied := supply supplied
  let groups := grouped records
  match groups.mapM (validateField requireComplete supplied.raw) with
  | .error what => .error (.raised what)
  | .ok results =>
      match noted supplied groups results with
      | [] => .ok (entries groups results)
      | errors =>
          .error (.validation "The draft does not match its request form."
            (errors.foldl (fun fieldErrors (code, message) =>
              addError (errorKey code) message fieldErrors) []))

end Helpdesk.Tickets
