/-
  File:      Helpdesk/Core/RuleCallers.lean
  Subject:   What becomes of a `TypeError` of a rule (workflows/service.py,
             routing/service.py, sla/service.py).

  The callers of `evaluate` catch `InvalidRule` only. A rule of any project's routing,
  workflow or SLA configuration that stumbles over a value of the wrong type therefore
  ends the call it is evaluated for.

  * `available_type_iff`, `selectRule_typeError_iff`, `goalMatches_type_iff`: when each
    caller raises a `TypeError`;
  * **`evaluate_total_iff`**: the evaluator and its callers, over all rules and values.
-/
import Helpdesk.Core.RuleSemantics
import Helpdesk.Routing.Precedence
import Helpdesk.Sla.Service
import Helpdesk.Workflow.Service

namespace Helpdesk.Core

open Helpdesk.Python Helpdesk.Tickets Helpdesk.Workflow Helpdesk.Routing Json

/-! ## 1. The guards of a workflow -/

/-- The guard of a transition in `WorkflowService.available`. -/
def guardAllows (fields : List (String × Json)) (transition : WorkflowTransition) :
    Except AppError Bool :=
  match evaluate transition.row.condition fields with
  | .ok allowed => .ok allowed
  | .error (.invalidRule _) =>
      .error (workflowConfiguration "The workflow contains an invalid deterministic guard.")
  | .error .typeError => .error .type

/-- The loop of `WorkflowService.available`. -/
def available (fields : List (String × Json)) :
    List WorkflowTransition → Except AppError (List WorkflowTransition)
  | [] => .ok []
  | transition :: rest => do
      if ← isApprovalContinuation transition.row.actions then available fields rest
      else if ← guardAllows fields transition then
        return transition :: (← available fields rest)
      else available fields rest

/-- The loop goes past the transition. -/
def Passes (fields : List (String × Json)) (transition : WorkflowTransition) : Prop :=
  isApprovalContinuation transition.row.actions = .ok true ∨
    isApprovalContinuation transition.row.actions = .ok false ∧
      ∃ allowed, Yields fields transition.row.condition allowed

variable {fields : List (String × Json)} {transition : WorkflowTransition}
  {transitions : List WorkflowTransition}

theorem guardAllows_ok_iff {allowed : Bool} :
    guardAllows fields transition = .ok allowed ↔
      Yields fields transition.row.condition allowed := by
  rw [yields_iff, guardAllows]
  cases evaluate transition.row.condition fields with
  | ok b => simp
  | error e => cases e <;> simp

theorem guardAllows_type_iff :
    guardAllows fields transition = .error .type ↔
      Stumbles fields transition.row.condition := by
  rw [← evaluate_typeError_iff, guardAllows]
  cases evaluate transition.row.condition fields with
  | ok b => simp
  | error e => cases e <;> simp [workflowConfiguration]

theorem isApprovalContinuation_ne_type (actions : Json) :
    isApprovalContinuation actions ≠ .error .type := by
  have hitems : ∀ actions, anyContinuation actions ≠ .error .type := by
    intro actions
    induction actions with
    | nil => simp [anyContinuation]
    | cons action rest ih =>
        cases action with
        | dict items =>
            intro h
            rcases bind_eq_error.mp h with h | ⟨name, -, h⟩
            · unfold actionType at h
              split at h
              · cases h
              · cases h
            · split at h
              · cases h
              · exact ih h
        | _ => simpa [anyContinuation] using ih
  cases actions with
  | list actions => exact hitems actions
  | _ => simp [isApprovalContinuation]

/-- The list of transitions raises a `TypeError` where a guard does past which no other
    has failed. -/
theorem available_type_iff :
    available fields transitions = .error .type ↔
      ∃ before transition after, transitions = before ++ transition :: after ∧
        (∀ earlier ∈ before, Passes fields earlier) ∧
        isApprovalContinuation transition.row.actions = .ok false ∧
        Stumbles fields transition.row.condition := by
  constructor
  · intro h
    induction transitions with
    | nil => cases h
    | cons transition rest ih =>
        have hrest : available fields rest = .error .type → Passes fields transition →
            ∃ before found after, transition :: rest = before ++ found :: after ∧
              (∀ earlier ∈ before, Passes fields earlier) ∧
              isApprovalContinuation found.row.actions = .ok false ∧
              Stumbles fields found.row.condition := by
          intro herror hpasses
          obtain ⟨before, found, after, rfl, hbefore, hfound⟩ := ih herror
          exact ⟨transition :: before, found, after, rfl,
            List.forall_mem_cons.mpr ⟨hpasses, hbefore⟩, hfound⟩
        rcases bind_eq_error.mp h with h | ⟨continuation, hcontinuation, h⟩
        · exact absurd h (isApprovalContinuation_ne_type _)
        · cases continuation with
          | true => exact hrest h (.inl hcontinuation)
          | false =>
              rcases bind_eq_error.mp h with h | ⟨allowed, hallowed, h⟩
              · exact ⟨[], transition, rest, rfl, nofun, hcontinuation, guardAllows_type_iff.mp h⟩
              · have hpasses : Passes fields transition :=
                  .inr ⟨hcontinuation, allowed, guardAllows_ok_iff.mp hallowed⟩
                cases allowed with
                | false => exact hrest h hpasses
                | true =>
                    rcases bind_eq_error.mp h with h | ⟨_, _, h⟩
                    · exact hrest h hpasses
                    · cases h
  · rintro ⟨before, transition, after, rfl, hbefore, hcontinuation, hstumbles⟩
    induction before with
    | nil =>
        rw [List.nil_append, available, hcontinuation]
        exact bind_eq_error.mpr (.inr ⟨false, rfl,
          bind_eq_error.mpr (.inl (guardAllows_type_iff.mpr hstumbles))⟩)
    | cons earlier before ih =>
        rw [List.forall_mem_cons] at hbefore
        rw [List.cons_append, available]
        rcases hbefore.1 with hearlier | ⟨hearlier, allowed, hallowed⟩
        · rw [hearlier]
          exact ih hbefore.2
        · rw [hearlier]
          refine bind_eq_error.mpr (.inr ⟨false, rfl, ?_⟩)
          refine bind_eq_error.mpr (.inr ⟨allowed, guardAllows_ok_iff.mpr hallowed, ?_⟩)
          cases allowed with
          | false => exact ih hbefore.2
          | true => exact bind_eq_error.mpr (.inl (ih hbefore.2))

/-! ## 2. The routing rules -/

/-- A selection comes to a rule that stumbles. -/
def SelectionStumbles (versions : List RoutingRuleVersion) (ticket : RoutingTicket) : Prop :=
  ∃ rules before rule after, Configured versions ∧ candidates versions = .ok rules ∧
    rules = before ++ rule :: after ∧
    (∀ earlier ∈ before, Yields (routingValues ticket) earlier.condition false) ∧
    Stumbles (routingValues ticket) rule.condition

theorem selectRule_typeError_iff {versions : List RoutingRuleVersion} {ticket : RoutingTicket} :
    selectRule versions ticket = .error .typeError ↔ SelectionStumbles versions ticket := by
  have hfirst : ∀ rules, firstMatch (routingValues ticket) rules = .error .typeError ↔
      ∃ before rule after, rules = before ++ rule :: after ∧
        (∀ earlier ∈ before, Yields (routingValues ticket) earlier.condition false) ∧
        Stumbles (routingValues ticket) rule.condition := by
    intro rules
    rw [firstMatch_error_iff]
    simp only [yields_iff, evaluate_typeError_iff]
  rcases selectRule_cases versions ticket with
    ⟨message, hselect, hnot⟩ | ⟨rules, default, hconfigured, hcandidates, hselect⟩
  · rw [hselect]
    refine ⟨nofun, ?_⟩
    rintro ⟨rules, _, _, _, hconfigured, hcandidates, -⟩
    exact absurd ⟨hconfigured, (candidates_ok hcandidates).1⟩ hnot
  · rw [hselect]
    have hiff := hfirst rules
    constructor
    · intro h
      split at h
      · cases h
      · cases h
      · cases h
      · next herror =>
          obtain ⟨before, rule, after, hrules, hbefore, hrule⟩ := hiff.mp herror
          exact ⟨rules, before, rule, after, hconfigured, hcandidates, hrules, hbefore, hrule⟩
    · rintro ⟨rules', before, rule, after, -, hcandidates', hrules, hbefore, hrule⟩
      cases hcandidates.symm.trans hcandidates'
      rw [hiff.mpr ⟨before, rule, after, hrules, hbefore, hrule⟩]

/-! ## 3. The goals of an SLA -/

/-- A goal's condition comes to the evaluator and stumbles there. -/
def GoalStumbles (values : List (String × Json)) (configuration : Json) : Prop :=
  ∃ items, configuration = .dict items ∧
    (items.all fun item => Sla.goalFields.contains item.1) = false ∧
    (Sla.ruleFields configuration).all Sla.goalFields.contains = true ∧
    Stumbles values configuration

theorem goalMatches_type_iff {configuration : Json} {values : List (String × Json)} :
    Sla.goalMatches configuration values = .error .type ↔ GoalStumbles values configuration := by
  unfold Sla.goalMatches
  by_cases hempty : pyIn configuration [.dict [], .null] = true
  · rw [if_pos hempty]
    refine ⟨nofun, ?_⟩
    rintro ⟨items, rfl, hfields, -⟩
    cases items with
    | nil => cases hfields
    | cons item items => simp [pyIn, pyEq] at hempty
  · rw [if_neg hempty]
    cases configuration with
    | dict items =>
        dsimp only
        cases hfields : items.all fun item => Sla.goalFields.contains item.1 with
        | true =>
            refine ⟨by simp, ?_⟩
            rintro ⟨items', heq, hfields', -⟩
            cases heq
            cases hfields.symm.trans hfields'
        | false =>
            cases hrule : (Sla.ruleFields (.dict items)).all Sla.goalFields.contains with
            | false => simp [GoalStumbles, hrule]
            | true =>
                have hiff : evaluate (.dict items) values = .error .typeError ↔
                    Stumbles values (.dict items) := evaluate_typeError_iff
                simp only [Bool.false_eq_true, if_false, not_true_eq_false]
                constructor
                · intro h
                  refine ⟨items, rfl, hfields, hrule, hiff.mp ?_⟩
                  split at h
                  · cases h
                  · cases h
                  · assumption
                · rintro ⟨-, -, -, -, hstumbles⟩
                  rw [hiff.mpr hstumbles]
    | _ => simp [GoalStumbles]

/-! ## 4. The evaluator and its callers -/

/-- **`evaluate` returns a truth value or raises `InvalidRule` exactly where it comes to no
    leaf of the wrong type**, and its callers raise a `TypeError` exactly where it does. -/
theorem evaluate_total_iff {rule values versions ticket fields transitions configuration} :
    (((∃ b, evaluate rule values = .ok b) ∨
        ∃ message, evaluate rule values = .error (.invalidRule message)) ↔
      ¬ Stumbles values rule) ∧
    (((∃ selection, selectRule versions ticket = .ok selection) ∨
        ∃ message, selectRule versions ticket = .error (.configuration message)) ↔
      ¬ SelectionStumbles versions ticket) ∧
    (available fields transitions ≠ .error .type ↔
      ¬ ∃ before transition after, transitions = before ++ transition :: after ∧
        (∀ earlier ∈ before, Passes fields earlier) ∧
        isApprovalContinuation transition.row.actions = .ok false ∧
        Stumbles fields transition.row.condition) ∧
    (Sla.goalMatches configuration values ≠ .error .type ↔ ¬ GoalStumbles values configuration) := by
  refine ⟨evaluate_returns_iff, ?_, not_congr available_type_iff, not_congr goalMatches_type_iff⟩
  rw [← selectRule_typeError_iff]
  cases selectRule versions ticket with
  | ok selection => simp
  | error e => cases e <;> simp

/-- **A number sought in a text is no `InvalidRule`.** -/
theorem number_in_text_raises :
    ¬ ∀ rule values, (∃ b, evaluate rule values = .ok b) ∨
      ∃ message, evaluate rule values = .error (.invalidRule message) := by
  intro hclaim
  have hraises : evaluate
      (.dict [("field", .str "summary"), ("operator", .str "contains"), ("value", .int 404)])
      [("summary", .str "Error 404")] = .error .typeError := by rfl
  rcases hclaim (.dict [("field", .str "summary"), ("operator", .str "contains"),
    ("value", .int 404)]) [("summary", .str "Error 404")] with ⟨b, h⟩ | ⟨message, h⟩
  · cases hraises.symm.trans h
  · cases hraises.symm.trans h

end Helpdesk.Core
