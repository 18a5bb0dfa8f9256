/-
  File:      Helpdesk/Workflow/Reservation.lean
  Subject:   Transitions that only an approval may take.

  An action of the type `APPROVAL_CONTINUATION` reserves a transition. `execute` looks
  for one in upper case and takes the type of every action before it for a text;
  `continue_workflow` asks the database whether the actions contain one as it stands.

  * `isApprovalContinuation_iff`, `isApprovalContinuation_ok_iff`: what `execute` finds;
  * `containsContinuation_iff`: what `continue_workflow` finds;
  * `reserved_alike_iff`: exactly when both agree and neither fails;
  * `executed_not_continued`: then no transition is taken by hand and by an approval.
-/
import Helpdesk.Workflow.Transitions

namespace Helpdesk.Workflow

open Helpdesk.Python Helpdesk.Core Helpdesk.Tickets Json

variable {sha256 : String → String} {now : Instant} {context : RequestContext} {ticketKey : String}
  {desk desk' : Desk} {action : Json} {actions : List Json} {name : String}

/-! ## 1. Actions -/

/-- An object with a text for its type. -/
def Named (name : String) (action : Json) : Prop :=
  ∃ items, action = .dict items ∧ lookup "type" items = some (.str name)

/-- An object with something else for its type. -/
def Untyped (action : Json) : Prop :=
  ∃ items value, action = .dict items ∧ lookup "type" items = some value ∧
    ∀ name, value ≠ .str name

/-- The type of a continuation, however it is written. -/
def Continues (action : Json) : Prop :=
  ∃ name, Named name action ∧ upper name = "APPROVAL_CONTINUATION"

theorem upper_continuation : upper "APPROVAL_CONTINUATION" = "APPROVAL_CONTINUATION" := by
  decide +kernel

/-- As it stands, the type is also in upper case. -/
theorem Named.continues (h : Named "APPROVAL_CONTINUATION" action) : Continues action :=
  ⟨_, h, upper_continuation⟩

/-- An action is untyped, or a continuation, or passed over. -/
inductive Scanned (action : Json) (rest : List Json) : Prop
  | untyped (untyped : Untyped action) (raises : anyContinuation (action :: rest) = .error .attribute)
  | found (continues : Continues action) (typed : ¬ Untyped action)
      (stops : anyContinuation (action :: rest) = .ok true)
  | passed (typed : ¬ Untyped action) (other : ¬ Continues action)
      (goes : anyContinuation (action :: rest) = anyContinuation rest)

theorem scanned (action : Json) (rest : List Json) : Scanned action rest := by
  cases action with
  | dict items =>
      cases htype : lookup "type" items with
      | none =>
          refine .passed ?_ ?_ ?_
          · rintro ⟨_, value, hitems, hvalue, _⟩
            cases hitems
            rw [htype] at hvalue
            cases hvalue
          · rintro ⟨name, ⟨_, hitems, hname⟩, _⟩
            cases hitems
            rw [htype] at hname
            cases hname
          · have hempty : ¬ upper "" = "APPROVAL_CONTINUATION" := by decide
            rw [anyContinuation, actionType, htype]
            have hif : (if upper "" = "APPROVAL_CONTINUATION" then
                (return true : Except AppError Bool) else anyContinuation rest) =
                  anyContinuation rest := if_neg hempty
            exact hif
      | some value =>
          by_cases htext : ∃ name, value = .str name
          · obtain ⟨name, rfl⟩ := htext
            have htyped : ¬ Untyped (.dict items) := by
              rintro ⟨_, value, hitems, hvalue, hother⟩
              cases hitems
              rw [htype] at hvalue
              exact hother name (Option.some.inj hvalue).symm
            by_cases hname : upper name = "APPROVAL_CONTINUATION"
            · refine .found ⟨name, ⟨items, rfl, htype⟩, hname⟩ htyped ?_
              rw [anyContinuation, actionType, htype]
              exact if_pos hname
            · refine .passed htyped ?_ ?_
              · rintro ⟨other, ⟨_, hitems, hother⟩, hupper⟩
                cases hitems
                rw [htype] at hother
                cases hother
                exact hname hupper
              · rw [anyContinuation, actionType, htype]
                exact if_neg hname
          · refine .untyped ⟨items, value, rfl, htype, fun name hvalue => htext ⟨name, hvalue⟩⟩ ?_
            rw [anyContinuation, actionType, htype]
            cases value with
            | str name => exact absurd ⟨name, rfl⟩ htext
            | _ => rfl
  | _ =>
      refine .passed ?_ ?_ rfl
      · rintro ⟨_, _, hitems, _⟩
        cases hitems
      · rintro ⟨_, ⟨_, hitems, _⟩, _⟩
        cases hitems

/-! ## 2. The two checks -/

/-- Every untyped action stands behind a continuation. -/
def Readable (actions : List Json) : Prop :=
  ∀ before action after, actions = before ++ action :: after → Untyped action →
    ∃ a ∈ before, Continues a

theorem readable_cons_iff {rest : List Json} (htyped : ¬ Untyped action)
    (hother : ¬ Continues action) : Readable (action :: rest) ↔ Readable rest := by
  constructor
  · intro h before a after hsplit huntyped
    obtain ⟨found, hmem, hfound⟩ := h (action :: before) a after (by rw [hsplit]; rfl) huntyped
    rcases List.mem_cons.mp hmem with rfl | hmem
    · exact absurd hfound hother
    · exact ⟨found, hmem, hfound⟩
  · intro h before a after hsplit huntyped
    cases before with
    | nil =>
        obtain ⟨rfl, _⟩ := List.cons.inj hsplit
        exact absurd huntyped htyped
    | cons b before =>
        obtain ⟨rfl, htail⟩ := List.cons.inj hsplit
        obtain ⟨found, hmem, hfound⟩ := h before a after htail huntyped
        exact ⟨found, List.mem_cons_of_mem _ hmem, hfound⟩

/-- **The loop ends without an error** if and only if every untyped action stands behind a
    continuation; the induction is on the actions that are left. -/
theorem anyContinuation_ok_iff :
    (∃ found, anyContinuation actions = .ok found) ↔ Readable actions := by
  induction actions with
  | nil =>
      refine iff_of_true ⟨false, rfl⟩ ?_
      intro before a after hsplit
      exact absurd hsplit (by simp)
  | cons action rest ih =>
      cases scanned action rest with
      | untyped huntyped hraises =>
          rw [hraises]
          refine iff_of_false (fun ⟨_, h⟩ => nomatch h) fun h => ?_
          obtain ⟨_, hmem, _⟩ := h [] action rest rfl huntyped
          cases hmem
      | found hcontinues htyped hstops =>
          rw [hstops]
          refine iff_of_true ⟨true, rfl⟩ ?_
          intro before a after hsplit huntyped
          cases before with
          | nil =>
              obtain ⟨rfl, _⟩ := List.cons.inj hsplit
              exact absurd huntyped htyped
          | cons b before =>
              obtain ⟨rfl, _⟩ := List.cons.inj hsplit
              exact ⟨action, List.mem_cons_self, hcontinues⟩
      | passed htyped hother hgoes => rw [hgoes, ih, readable_cons_iff htyped hother]

/-- **What the loop finds** is a continuation, however it is written. -/
theorem anyContinuation_iff (hreadable : Readable actions) :
    anyContinuation actions = .ok true ↔ ∃ action ∈ actions, Continues action := by
  induction actions with
  | nil => simp [anyContinuation]
  | cons action rest ih =>
      cases scanned action rest with
      | untyped huntyped =>
          obtain ⟨_, hmem, _⟩ := hreadable [] action rest rfl huntyped
          cases hmem
      | found hcontinues _ hstops =>
          exact iff_of_true hstops ⟨action, List.mem_cons_self, hcontinues⟩
      | passed htyped hother hgoes =>
          rw [hgoes, ih ((readable_cons_iff htyped hother).mp hreadable), List.exists_mem_cons_iff]
          simp only [hother, false_or]

theorem containsContinuation_iff :
    containsContinuation (.list actions) = true ↔
      ∃ action ∈ actions, Named "APPROVAL_CONTINUATION" action := by
  unfold containsContinuation
  rw [List.any_eq_true]
  refine exists_congr fun action => and_congr_right fun _ => ?_
  cases action with
  | dict items =>
      constructor
      · intro h
        cases htype : lookup "type" items with
        | none => simp [htype] at h
        | some value =>
            cases value with
            | str name =>
                simp only [htype, decide_eq_true_eq] at h
                exact ⟨items, rfl, h ▸ htype⟩
            | _ => simp [htype] at h
      · rintro ⟨_, hitems, hname⟩
        cases hitems
        simp [hname]
  | _ => simp [Named]

/-! ## 3. Reserved for approvals -/

/-- **A transition is reserved alike** on both sides: `execute` tells whether it is reserved
    without any other error, and refuses it exactly if `continue_workflow` accepts it. -/
structure ReservedAlike (actions : Json) : Prop where
  decided : ∃ refused, isApprovalContinuation actions = .ok refused
  alike : isApprovalContinuation actions = .ok true ↔ containsContinuation actions = true

/-- **Reserved alike** is a transition if and only if every action with something else than a
    text for its type stands behind a continuation, and a continuation in any case comes with
    one in upper case. -/
theorem reserved_alike_iff (actions : Json) :
    ReservedAlike actions ↔ ∀ list, actions = .list list → Readable list ∧
      ((∃ action ∈ list, Continues action) →
        ∃ action ∈ list, Named "APPROVAL_CONTINUATION" action) := by
  constructor
  · rintro hsame list rfl
    have hreadable := anyContinuation_ok_iff.mp hsame.decided
    refine ⟨hreadable, fun hcontinues => ?_⟩
    exact containsContinuation_iff.mp
      (hsame.alike.mp ((anyContinuation_iff hreadable).mpr hcontinues))
  · intro h
    cases actions with
    | list list =>
        obtain ⟨hreadable, hupper⟩ := h list rfl
        refine ⟨anyContinuation_ok_iff.mpr hreadable, ?_⟩
        have hfound : isApprovalContinuation (.list list) = .ok true ↔
            ∃ action ∈ list, Continues action := anyContinuation_iff hreadable
        rw [hfound, containsContinuation_iff]
        exact ⟨hupper, fun ⟨action, hmem, hnamed⟩ => ⟨action, hmem, hnamed.continues⟩⟩
    | _ =>
        refine ⟨⟨false, rfl⟩, iff_of_false ?_ ?_⟩
        · exact fun hrefused => nomatch hrefused
        · exact fun hcontained => nomatch hcontained

/-- A type in lower case: refused on both sides. -/
theorem lower_case_reserves_for_nobody : ¬ ∀ actions, ReservedAlike actions := by
  intro hclaim
  have hsame := (hclaim (.list [.dict [("type", .str "approval_continuation")]])).alike
  have hrefused : isApprovalContinuation
      (.list [.dict [("type", .str "approval_continuation")]]) = .ok true := by decide +kernel
  have hcontained := hsame.mp hrefused
  revert hcontained
  decide

/-! ## 4. The two services -/

/-- **What is executed by hand** was found not to be reserved. -/
theorem execute_unreserved {command : TransitionCommand} {key : String} {version : Nat}
    (h : (execute sha256 now context ticketKey command key).run desk = .ok (some version, desk')) :
    ∃ tenantId found transition, workflowTicket desk context tenantId ticketKey = some found ∧
      workflowTransition desk.config found.row.workflowVersionId found.row.statusId
        command.transitionCode = some transition ∧
      isApprovalContinuation transition.row.actions = .ok false := by
  unfold execute at h
  rw [Transaction.lift_bind_eq_ok] at h
  obtain ⟨_, _, h⟩ := h
  rw [Transaction.lift_bind_eq_ok] at h
  obtain ⟨⟨tenantId, userId⟩, _, h⟩ := h
  dsimp only at h
  rw [Transaction.get_bind] at h
  split at h
  · exact (Transaction.throw_ne_ok.mp h).elim
  · rename_i found hfound
    rw [Transaction.bind_eq_ok] at h
    obtain ⟨idem, desk₁, hclaim, h⟩ := h
    have hquiet : Quiet desk desk₁ := quiet_statements.claimIdempotency _ _ _ hclaim
    rw [Transaction.lift_bind_eq_ok] at h
    obtain ⟨_, _, h⟩ := h
    split at h
    · obtain ⟨hnone, _⟩ := Transaction.pure_eq_ok.mp h
      cases hnone
    · rw [Transaction.guard_eq_ok] at h
      obtain ⟨_, h⟩ := h
      rw [Transaction.guard_eq_ok, Transaction.get_bind] at h
      obtain ⟨_, h⟩ := h
      split at h
      · exact (Transaction.throw_ne_ok.mp h).elim
      · rename_i transition htransition
        rw [Transaction.lift_bind_eq_ok] at h
        obtain ⟨reserved, hreserved, h⟩ := h
        rw [Transaction.guard_eq_ok] at h
        obtain ⟨hnot, _⟩ := h
        obtain rfl : reserved = false := Bool.eq_false_iff.mpr hnot
        rw [hquiet.config] at htransition
        exact ⟨tenantId, found, transition, hfound, htransition, hreserved⟩

/-- **What an approval continues** contains a continuation. -/
theorem continueWorkflow_reserved {approval : LockedApproval} {transitionId : Uuid} {u : Unit}
    (h : (continueWorkflow now context approval transitionId).run desk = .ok (u, desk')) :
    ∃ row ∈ desk.config.transitions, row.transitionId = transitionId ∧
      containsContinuation row.actions = true := by
  unfold continueWorkflow at h
  rw [Transaction.get_bind] at h
  split at h
  · exact (Transaction.throw_ne_ok.mp h).elim
  · rename_i ticket transition hrows
    unfold continuation at hrows
    simp only [Option.bind_eq_bind, Option.bind_eq_some_iff] at hrows
    obtain ⟨_, _, row, hrow, _⟩ := hrows
    have hmatches := List.find?_some hrow
    simp only [Bool.and_eq_true, decide_eq_true_eq] at hmatches
    exact ⟨row, List.mem_of_find?_eq_some hrow, hmatches.1.1.1.1, hmatches.2⟩

/-- **No transition is taken by hand and by an approval**, if the transitions are reserved
    alike. -/
theorem executed_not_continued {command : TransitionCommand} {key : String} {version : Nat}
    {approval : LockedApproval} {transitionId : Uuid} {u : Unit} {later later' : Desk}
    (hids : (desk.config.transitions.map (·.transitionId)).Nodup)
    (halike : ∀ row ∈ desk.config.transitions, ReservedAlike row.actions)
    (hsame : later.config = desk.config)
    (hexecuted : (execute sha256 now context ticketKey command key).run desk =
      .ok (some version, desk'))
    (hcontinued : (continueWorkflow now context approval transitionId).run later =
      .ok (u, later')) :
    ∃ tenantId found transition, workflowTicket desk context tenantId ticketKey = some found ∧
      workflowTransition desk.config found.row.workflowVersionId found.row.statusId
        command.transitionCode = some transition ∧
      transition.row.transitionId ≠ transitionId := by
  obtain ⟨tenantId, found, transition, hfound, htransition, hfree⟩ := execute_unreserved hexecuted
  obtain ⟨row, hrow, hid, hreserved⟩ := continueWorkflow_reserved hcontinued
  rw [hsame] at hrow
  refine ⟨tenantId, found, transition, hfound, htransition, fun htaken => ?_⟩
  have hmem : transition.row ∈ desk.config.transitions := by
    unfold workflowTransition at htransition
    simp only [Option.bind_eq_bind, Option.bind_eq_some_iff] at htransition
    obtain ⟨row', hrow', _, _, _, _, hmade⟩ := htransition
    obtain rfl := Option.some.inj hmade
    exact List.mem_of_find?_eq_some hrow'
  have hone : transition.row = row := List.inj_on_of_nodup_map hids hmem hrow (htaken.trans hid.symm)
  have hrefused := (halike _ hrow).alike.mpr hreserved
  rw [← hone, hfree] at hrefused
  cases hrefused

end Helpdesk.Workflow
