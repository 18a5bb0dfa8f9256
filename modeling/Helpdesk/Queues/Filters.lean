/-
  File:      Helpdesk/Queues/Filters.lean
  Subject:   Queue filters and their SQL (apps/api/app/queues/service.py: `_FIELDS` and
             `_compile_filter`).

  A filter is JSON: groups `all` and `any` of filters, and leaves that compare one
  column of a ticket. It is compiled to a condition whose values are bound by name;
  the names are numbered by what the dict of parameters already holds.

  * `compileFilter`: the compiler, with the condition as tokens (`sqlText` is their
    text);
  * `holds`: what the filter says of a ticket, read off its JSON.
-/
import Helpdesk.Lib.Conditions
import Helpdesk.Python.Datetime
import Helpdesk.Python.Dict
import Helpdesk.Python.Json
import Helpdesk.Python.Uuid

namespace Helpdesk.Queues

open Helpdesk.Python Helpdesk.Conditions

/-! ## 1. Columns, atoms and parameters -/

inductive Field where
  | assignmentGroupId | assigneeUserId | priorityCode | statusCode | projectId
  deriving DecidableEq, Repr

/-- The keys of `_FIELDS`. -/
def field? (name : String) : Option Field :=
  if name = "assignment_group_id" then some .assignmentGroupId
  else if name = "assignee_user_id" then some .assigneeUserId
  else if name = "priority_code" then some .priorityCode
  else if name = "status_code" then some .statusCode
  else if name = "project_id" then some .projectId
  else none

/-- The values of `_FIELDS`. -/
def Field.column : Field → String
  | .assignmentGroupId => "ticket.assignment_group_id"
  | .assigneeUserId => "ticket.assignee_user_id"
  | .priorityCode => "ticket.priority_code"
  | .statusCode => "status.status_code"
  | .projectId => "ticket.project_id"

/-- `f"queue_filter_{index}"` -/
def parameterName (index : Nat) : String := "queue_filter_" ++ toString index

/-- The conditions without connectives; a parameter by its number. -/
inductive Atom where
  | true
  | isNull (field : Field)
  | isNotNull (field : Field)
  | currentUser (field : Field)
  | supportGroups (field : Field)
  | equals (field : Field) (index : Nat)
  | inList (field : Field) (index : Nat)
  deriving DecidableEq, Repr

def Atom.text : Atom → String
  | .true => "TRUE"
  | .isNull field => field.column ++ " IS NULL"
  | .isNotNull field => field.column ++ " IS NOT NULL"
  | .currentUser field => field.column ++ "=:current_user_id"
  | .supportGroups field => field.column ++ "=ANY(CAST(:support_group_ids AS uuid[]))"
  | .equals field index =>
      "CAST(" ++ field.column ++ " AS text)=CAST(:" ++ parameterName index ++ " AS text)"
  | .inList field index =>
      "CAST(" ++ field.column ++ " AS text)=ANY(CAST(:" ++ parameterName index ++ " AS text[]))"

/-- The parameter that an atom names. -/
def Atom.index? : Atom → Option Nat
  | .equals _ index => some index
  | .inList _ index => some index
  | _ => none

abbrev Sql := List (Token Atom)

def tokenText : Token Atom → String
  | .atom a => a.text
  | .connective .and => " AND "
  | .connective .or => " OR "
  | .lparen => "("
  | .rparen => ")"

/-- The SQL text. -/
def sqlText (sql : Sql) : String := String.join (sql.map tokenText)

/-- The numbers of the parameters that a condition names, in their order. -/
def indices (sql : Sql) : List Nat := sql.filterMap fun
  | .atom a => a.index?
  | _ => none

/-- A bound value. -/
inductive Bind where
  | none
  | bool (b : Bool)
  | int (n : Int)
  | text (s : String)
  | texts (values : List String)
  | uuid (id : Uuid)
  | uuids (ids : List Uuid)
  | timestamp (t : Instant)
  deriving DecidableEq, Repr

/-- The items of the dict `parameters`. -/
abbrev Parameters := List (String × Bind)

/-- `key.startswith("queue_filter_")` -/
def isGenerated (key : String) : Bool := "queue_filter_".toList.isPrefixOf key.toList

/-- `sum(key.startswith("queue_filter_") for key in parameters)` -/
def nextIndex (parameters : Parameters) : Nat := parameters.countP fun p => isGenerated p.1

/-! ## 2. `_compile_filter` -/

inductive FilterError where
  /-- `QueueConfigurationError` -/
  | configuration (message : String)
  /-- a `TypeError`: a list or a dict is no key -/
  | typeError
  deriving DecidableEq, Repr

abbrev Compiled (α : Type) := Except FilterError α

/-- `_FIELDS.get(value["field"])` -/
def fieldOf : Json → Compiled (Option Field)
  | .list _ => .error .typeError
  | .dict _ => .error .typeError
  | .str name => .ok (field? name)
  | _ => .ok none

/-- `isinstance(value, (str, int, bool))`, with the value that is bound. -/
def scalar? : Json → Option Bind
  | .str s => some (.text s)
  | .int n => some (.int n)
  | .bool b => some (.bool b)
  | _ => none

/-- The strings of a list, when it holds nothing else. -/
def strings? (items : List Json) : Option (List String) :=
  items.mapM fun
    | .str s => some s
    | _ => none

/-- A parameter with the next free number. -/
def bound (atom : Nat → Atom) (value : Bind) (parameters : Parameters) : Sql × Parameters :=
  ([.atom (atom (nextIndex parameters))],
    assign parameters (parameterName (nextIndex parameters)) value)

def unsupportedOperator : FilterError :=
  .configuration "A published queue uses an unsupported filter operator."

/-- The operators that bind a value of the filter. -/
def compileValue (field : Field) (operator : Json) (value : Json) (parameters : Parameters) :
    Compiled (Sql × Parameters) :=
  match operator, value with
  | .str "equals", value =>
      match scalar? value with
      | some bind => .ok (bound (.equals field) bind parameters)
      | none => .error unsupportedOperator
  | .str "in", .list items =>
      match strings? items with
      | some expected =>
          if expected = [] ∨ 50 < expected.length then
            .error (.configuration "Queue filter lists must contain 1 to 50 strings.")
          else .ok (bound (.inList field) (.texts expected) parameters)
      | none => .error (.configuration "Queue filter lists must contain 1 to 50 strings.")
  | _, _ => .error unsupportedOperator

/-- The operators, on a supported field. -/
def compileOperator (field : Field) (operator value : Json) (parameters : Parameters) :
    Compiled (Sql × Parameters) :=
  match operator, value, field with
  | .str "is_null", _, _ => .ok ([.atom (.isNull field)], parameters)
  | .str "is_not_null", _, _ => .ok ([.atom (.isNotNull field)], parameters)
  | .str "equals_context", .str "user_id", .assigneeUserId =>
      .ok ([.atom (.currentUser field)], parameters)
  | .str "in_context", .str "support_group_ids", .assignmentGroupId =>
      .ok ([.atom (.supportGroups field)], parameters)
  | operator, value, _ => compileValue field operator value parameters

/-- A filter that is no group. -/
def compileLeaf (items : List (String × Json)) (parameters : Parameters) :
    Compiled (Sql × Parameters) :=
  match Json.lookup "field" items, Json.lookup "operator" items with
  | some fieldName, some operator =>
      match fieldOf fieldName with
      | .error e => .error e
      | .ok none => .error (.configuration "A published queue uses an unsupported filter field.")
      | .ok (some field) => compileOperator field operator (Json.getD items "value") parameters
  | _, _ => .error (.configuration "A published queue contains an invalid filter.")

/-- The connective of a group, by its only key. -/
def connective? (key : String) : Option Connective :=
  if key = "all" then some .and else if key = "any" then some .or else none

/-- `set(value) in ({"all"}, {"any"})` -/
def isGroup : List (String × Json) → Bool
  | [(key, _)] => (connective? key).isSome
  | _ => false

def invalidGroup : FilterError :=
  .configuration "Queue filter groups must contain 1 to 20 rules."

mutual

/-- `_compile_filter` -/
def compileFilter (value : Json) (parameters : Parameters) (depth : Nat) :
    Compiled (Sql × Parameters) :=
  if 5 < depth then .error (.configuration "Queue filter nesting is too deep.")
  else match value with
  | .null => .ok ([.atom .true], parameters)
  | .list [] => .ok ([.atom .true], parameters)
  | .dict [] => .ok ([.atom .true], parameters)
  | .dict [(key, .list children)] =>
      match connective? key with
      | some connective =>
          if children = [] ∨ 20 < children.length then .error invalidGroup
          else do
            let (parts, parameters) ← compileChildren children parameters (depth + 1)
            return (Conditions.joined connective parts, parameters)
      | none => compileLeaf [(key, .list children)] parameters
  | .dict items => if isGroup items then .error invalidGroup else compileLeaf items parameters
  | _ => .error (.configuration "A published queue contains an invalid filter.")

/-- The children of a group, from left to right. -/
def compileChildren (children : List Json) (parameters : Parameters) (depth : Nat) :
    Compiled (List Sql × Parameters) :=
  match children with
  | [] => .ok ([], parameters)
  | child :: rest => do
      let (sql, parameters) ← compileFilter child parameters depth
      let (parts, parameters) ← compileChildren rest parameters depth
      return (sql :: parts, parameters)

end

/-! ## 3. What a filter says -/

/-- What the filters read of a ticket's row. -/
structure QueueRow where
  assignmentGroupId : Option Uuid
  assigneeUserId : Option Uuid
  priorityCode : String
  statusCode : String
  projectId : Uuid

/-- `CAST(column AS text)`; `none` is NULL. -/
def QueueRow.text (row : QueueRow) : Field → Option String
  | .assignmentGroupId => row.assignmentGroupId.map uuidText
  | .assigneeUserId => row.assigneeUserId.map uuidText
  | .priorityCode => some row.priorityCode
  | .statusCode => some row.statusCode
  | .projectId => some (uuidText row.projectId)

/-- Who looks at the queue. -/
structure QueueContext where
  userId : Uuid
  supportGroupIds : List Uuid

/-- The text of a scalar, as the database casts it. -/
def Bind.castText : Bind → Option String
  | .text s => some s
  | .int n => some (toString n)
  | .bool b => some (if b then "true" else "false")
  | _ => .none

/-- What a leaf says of a ticket. -/
def leafHolds (row : QueueRow) (context : QueueContext) (field : Field) (operator value : Json) :
    Bool :=
  match operator, value with
  | .str "is_null", _ => row.text field = none
  | .str "is_not_null", _ => row.text field ≠ none
  | .str "equals_context", .str "user_id" =>
      field = .assigneeUserId && row.assigneeUserId = some context.userId
  | .str "in_context", .str "support_group_ids" =>
      field = .assignmentGroupId && row.assignmentGroupId.any (· ∈ context.supportGroupIds)
  | .str "equals", value =>
      ((scalar? value).bind Bind.castText).any fun text => row.text field = some text
  | .str "in", .list items => items.any fun
      | .str text => row.text field = some text
      | _ => false
  | _, _ => false

mutual

/-- **What a filter says of a ticket**, by the structure of its JSON: an empty filter
    says nothing, a group is all or any of its children. -/
def holds (row : QueueRow) (context : QueueContext) (filter : Json) : Bool :=
  match filter with
  | .null => true
  | .list [] => true
  | .dict [] => true
  | .dict [(key, .list children)] =>
      match connective? key with
      | some .and => holdsAll row context children
      | some .or => holdsAny row context children
      | none => false
  | .dict items =>
      match Json.lookup "field" items, Json.lookup "operator" items with
      | some (.str name), some operator =>
          (field? name).any fun field => leafHolds row context field operator (Json.getD items "value")
      | _, _ => false
  | _ => false

def holdsAll (row : QueueRow) (context : QueueContext) (children : List Json) : Bool :=
  match children with
  | [] => true
  | child :: rest => holds row context child && holdsAll row context rest

def holdsAny (row : QueueRow) (context : QueueContext) (children : List Json) : Bool :=
  match children with
  | [] => false
  | child :: rest => holds row context child || holdsAny row context rest

end

/-! ## 4. What the database makes of a condition -/

/-- The values of the statement's parameters, by their names. -/
abbrev Binds := String → Option Bind

def Binds.text (binds : Binds) (name : String) : Option String := (binds name).bind Bind.castText

def Binds.texts (binds : Binds) (name : String) : Option (List String) :=
  match binds name with
  | some (.texts values) => some values
  | _ => none

def Binds.uuid (binds : Binds) (name : String) : Option Uuid :=
  match binds name with
  | some (.uuid id) => some id
  | _ => none

def Binds.uuids (binds : Binds) (name : String) : Option (List Uuid) :=
  match binds name with
  | some (.uuids ids) => some ids
  | _ => none

/-- The columns that hold a UUID. -/
def QueueRow.uuid (row : QueueRow) : Field → Option Uuid
  | .assignmentGroupId => row.assignmentGroupId
  | .assigneeUserId => row.assigneeUserId
  | .projectId => some row.projectId
  | _ => none

/-- The value of an atom on a ticket. -/
def atomTruth (row : QueueRow) (binds : Binds) : Atom → Truth
  | .true => some true
  | .isNull field => some (row.text field = none)
  | .isNotNull field => some (row.text field ≠ none)
  | .currentUser field => eq3 (row.uuid field) (binds.uuid "current_user_id")
  | .supportGroups field => any3 (row.uuid field) (binds.uuids "support_group_ids")
  | .equals field index => eq3 (row.text field) (binds.text (parameterName index))
  | .inList field index => any3 (row.text field) (binds.texts (parameterName index))

end Helpdesk.Queues
