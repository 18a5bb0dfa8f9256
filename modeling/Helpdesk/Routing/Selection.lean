/-
  File:      Helpdesk/Routing/Selection.lean
  Subject:   The choice of a routing rule (apps/api/app/routing: models.py and
             `_select_rule` of service.py).
-/
import Helpdesk.Core.Rules
import Helpdesk.Python.Datetime
import Helpdesk.Python.Uuid
import Mathlib.Data.List.Sort

namespace Helpdesk.Routing

open Helpdesk.Python Helpdesk.Core Json

/-! ## 1. Tickets and rules -/

structure RoutingTicket where
  ticketId : Uuid
  tenantId : Uuid
  ticketKey : String
  projectId : Uuid
  projectCode : String
  serviceNodeId : Option Uuid
  serviceNodeCode : Option String
  serviceCode : Option String
  moduleCode : Option String
  environmentCode : Option String
  workTypeCode : String
  priorityCode : String
  statusCode : String
  summary : String
  description : Option String
  assignmentGroupId : Option Uuid
  assigneeUserId : Option Uuid
  rowVersion : Nat
  /-- the items of a dict -/
  customFields : List (String × Json)

structure RoutingRuleVersion where
  routingRuleId : Uuid
  routingRuleVersionId : Uuid
  versionNumber : Nat
  rulePriority : Int
  condition : Json
  assignmentGroupId : Uuid
  assignmentMethod : String
  assigneeUserId : Option Uuid
  effectiveFrom : Option Instant
  groupCode : String

/-! ## 2. `_routing_values` -/

/-- `values[key] = value`. -/
def setItem (key : String) (value : Json) : List (String × Json) → List (String × Json)
  | [] => [(key, value)]
  | (k, v) :: rest => if k = key then (k, value) :: rest else (k, v) :: setItem key value rest

/-- `values.setdefault(key, value)`. -/
def setDefault (key : String) (value : Json) (items : List (String × Json)) : List (String × Json) :=
  match lookup key items with
  | some _ => items
  | none => items ++ [(key, value)]

def optionalText (text : Option String) : Json := (text.map Json.str).getD .null

/-- `f"field.{code}"`. -/
def fieldName (code : String) : String := "field." ++ code

def builtinValues (ticket : RoutingTicket) : List (String × Json) :=
  [("project_id", .str (uuidText ticket.projectId)),
   ("project_code", .str ticket.projectCode),
   ("service_node_id", optionalText (ticket.serviceNodeId.map uuidText)),
   ("service_node_code", optionalText ticket.serviceNodeCode),
   ("service_code", optionalText ticket.serviceCode),
   ("module_code", optionalText ticket.moduleCode),
   ("environment_code", optionalText ticket.environmentCode),
   ("work_type_code", .str ticket.workTypeCode),
   ("priority_code", .str ticket.priorityCode),
   ("status_code", .str ticket.statusCode),
   ("summary", .str ticket.summary),
   ("description", optionalText ticket.description)]

/-- `_routing_values`. -/
def routingValues (ticket : RoutingTicket) : List (String × Json) :=
  ticket.customFields.foldl
    (fun values (code, value) => setDefault code value (setItem (fieldName code) value values))
    (builtinValues ticket)

/-! ## 3. The order of the rules -/

/-- How a selection ends when it does not return: with `RoutingConfigurationError`, or
    with the `TypeError` of an operator. -/
inductive SelectError where
  | configuration (message : String)
  | typeError
  deriving DecidableEq, Repr

/-- `rule in ({}, [], None)`. -/
def isEmptyCondition (rule : Json) : Bool := pyIn rule [.dict [], .list [], .null]

mutual

/-- `_specificity`. -/
def specificity (rule : Json) : Except SelectError Nat :=
  match rule with
  | .null => .ok 0
  | .list items => specificities items
  | .dict [] => .ok 0
  | .dict [(key, .list items)] =>
      if key = "all" ∨ key = "any" then specificities items
      else .error (.configuration "A routing rule has invalid condition syntax.")
  | .dict items =>
      let keys := items.map (·.1)
      if keys.contains "field" && keys.contains "operator" then .ok 1
      else .error (.configuration "A routing rule has invalid condition syntax.")
  | _ => .error (.configuration "A routing rule has invalid condition syntax.")

/-- `sum(_specificity(item) for item in rule)`. -/
def specificities (items : List Json) : Except SelectError Nat :=
  match items with
  | [] => .ok 0
  | item :: rest => do return (← specificity item) + (← specificities rest)

end

/-- The tuple of `_rule_order`; the effective time stands for its float timestamp. -/
structure RuleOrder where
  rulePriority : Int
  specificity : Nat
  effective : Instant
  versionId : String

/-- `_rule_order`. -/
def ruleOrder (rule : RoutingRuleVersion) : Except SelectError RuleOrder := do
  return {
    rulePriority := rule.rulePriority
    specificity := ← specificity rule.condition
    effective := rule.effectiveFrom.getD 0
    versionId := uuidText rule.routingRuleVersionId }

/-- The order of the tuples: of two rules of one priority the more specific comes first,
    then the one in effect since later. -/
def RuleOrder.le (a b : RuleOrder) : Prop :=
  a.rulePriority < b.rulePriority ∨ a.rulePriority = b.rulePriority ∧
    (b.specificity < a.specificity ∨ a.specificity = b.specificity ∧
      (b.effective < a.effective ∨ a.effective = b.effective ∧ a.versionId ≤ b.versionId))

instance : DecidableRel RuleOrder.le := fun _ _ => inferInstanceAs (Decidable (_ ∨ _))

/-- The rules that are not a default, in their order. -/
def candidates (versions : List RoutingRuleVersion) : Except SelectError (List RoutingRuleVersion) := do
  let keyed ← (versions.filter fun r => !isEmptyCondition r.condition).mapM fun r => do
    return (← ruleOrder r, r)
  return (keyed.insertionSort fun a b => a.1.le b.1).map (·.2)

/-! ## 4. `_select_rule` -/

/-- An entry of `evaluated_rules`. -/
structure Evaluated where
  routingRuleVersionId : Uuid
  matched : Bool
  default : Bool
  deriving DecidableEq, Repr

/-- The first rule that matches, with what was evaluated on the way. -/
def firstMatch (values : List (String × Json)) :
    List RoutingRuleVersion → Except RuleError (Option RoutingRuleVersion × List Evaluated)
  | [] => .ok (none, [])
  | rule :: rest => do
      if ← evaluate rule.condition values then
        return (some rule, [⟨rule.routingRuleVersionId, true, false⟩])
      else
        let (found, evaluated) ← firstMatch values rest
        return (found, ⟨rule.routingRuleVersionId, false, false⟩ :: evaluated)

/-- A rule, whether it is the default, and what was evaluated. -/
structure Selection where
  rule : RoutingRuleVersion
  fallback : Bool
  evaluated : List Evaluated

/-- One routing rule has more than one version. -/
def duplicated (versions : List RoutingRuleVersion) : Bool :=
  versions.any fun r => 1 < versions.countP fun other => other.routingRuleId = r.routingRuleId

/-- The default rules. -/
def defaults (versions : List RoutingRuleVersion) : List RoutingRuleVersion :=
  versions.filter fun r => isEmptyCondition r.condition

/-- `_select_rule`, with the values the rules are evaluated on. -/
def selectAmong (versions : List RoutingRuleVersion) (values : List (String × Json)) :
    Except SelectError Selection :=
  if duplicated versions then
    .error (.configuration
      "More than one effective published version exists for a routing rule.")
  else match defaults versions with
    | [default] => do
        match firstMatch values (← candidates versions) with
        | .ok (some rule, evaluated) => .ok ⟨rule, false, evaluated⟩
        | .ok (none, evaluated) =>
            .ok ⟨default, true, evaluated ++ [⟨default.routingRuleVersionId, true, true⟩]⟩
        | .error (.invalidRule _) => .error (.configuration
            "A published routing rule contains unsupported deterministic configuration.")
        | .error .typeError => .error .typeError
    | _ => .error (.configuration
        "The ticket project must have exactly one effective default route.")

/-- `_select_rule`. -/
def selectRule (versions : List RoutingRuleVersion) (ticket : RoutingTicket) :
    Except SelectError Selection :=
  selectAmong versions (routingValues ticket)

end Helpdesk.Routing
