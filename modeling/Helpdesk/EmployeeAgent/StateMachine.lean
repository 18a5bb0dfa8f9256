/-
  File:      Helpdesk/EmployeeAgent/StateMachine.lean
  Subject:   The declared states of an employee conversation
             (apps/api/app/employee_agent/state_machine.py).

  * `advance`: one declared transition, or the exception;
  * `Reaches`: what is reachable in the table;
  * `reaches_iff`: it can be computed.
-/
import Mathlib.Data.List.Dedup
import Mathlib.Logic.Function.Iterate
import Mathlib.Logic.Relation

namespace Helpdesk.EmployeeAgent

inductive AgentState where
  | new
  | collectingInformation
  | classified
  | searchingKnowledge
  | solutionProposed
  | awaitingResolutionConfirmation
  | resolvedWithoutTicket
  | collectingTicketFields
  | ticketDraftReady
  | awaitingUserConfirmation
  | ticketSubmitted
  deriving DecidableEq, Repr

/-- `_TRANSITIONS`. -/
def transitions : AgentState → List AgentState
  | .new => [.collectingInformation]
  | .collectingInformation => [.classified, .collectingTicketFields]
  | .classified => [.searchingKnowledge, .collectingTicketFields]
  | .searchingKnowledge => [.solutionProposed, .collectingTicketFields]
  | .solutionProposed => [.awaitingResolutionConfirmation]
  | .awaitingResolutionConfirmation =>
      [.collectingInformation, .resolvedWithoutTicket, .collectingTicketFields]
  | .collectingTicketFields => [.collectingTicketFields, .ticketDraftReady]
  | .ticketDraftReady => [.awaitingUserConfirmation]
  | .awaitingUserConfirmation => [.ticketSubmitted]
  | .resolvedWithoutTicket => []
  | .ticketSubmitted => []

/-- `EmployeeAgentStateMachine.advance`; `none` is `InvalidAgentTransition`. -/
def advance (state target : AgentState) : Option AgentState :=
  if target ∈ transitions state then some target else none

/-- The second state is reachable from the first. -/
def Reaches : AgentState → AgentState → Prop :=
  Relation.ReflTransGen fun state target => target ∈ transitions state

/-! ## Reachability is computed -/

/-- One more transition. -/
def spread (states : List AgentState) : List AgentState :=
  (states ++ states.flatMap transitions).dedup

/-- All that is reachable: no path needs more than ten transitions. -/
def reachable (state : AgentState) : List AgentState := Nat.iterate spread 10 [state]

theorem reaches_of_mem_spread {state target : AgentState} :
    ∀ (n : Nat), target ∈ Nat.iterate spread n [state] → Reaches state target := by
  intro n
  induction n generalizing target with
  | zero =>
      intro h
      obtain rfl := List.mem_singleton.mp h
      exact .refl
  | succ n ih =>
      intro h
      rw [Function.iterate_succ_apply', spread, List.mem_dedup, List.mem_append] at h
      rcases h with hold | hnew
      · exact ih hold
      · obtain ⟨middle, hmiddle, htarget⟩ := List.mem_flatMap.mp hnew
        exact (ih hmiddle).tail htarget

theorem mem_reachable_self (state : AgentState) : state ∈ reachable state := by
  cases state <;> decide +kernel

theorem reachable_closed (state : AgentState) : ∀ middle ∈ reachable state,
    ∀ target ∈ transitions middle, target ∈ reachable state := by
  cases state <;> decide +kernel

/-- **What is reachable, computed.** -/
theorem reaches_iff {state target : AgentState} : Reaches state target ↔ target ∈ reachable state := by
  constructor
  · intro h
    induction h with
    | refl => exact mem_reachable_self state
    | tail _ hstep ih => exact reachable_closed state _ ih _ hstep
  · exact reaches_of_mem_spread 10

instance : DecidableRel Reaches := fun _ _ => decidable_of_iff _ reaches_iff.symm

end Helpdesk.EmployeeAgent
