/-
  File:      Helpdesk/Lib/Runs.lean
  Subject:   Runs of a labelled step relation.

  A system here is a relation `step : σ → ℓ → σ → Prop`: a state, the label of
  what happens (an input with everything it carries), the next state. A run is a
  list of labels with the state they lead to, built at its end, so that an
  invariant is proved from the state the last step starts in.

  * `Run.invariant`: an invariant of every step holds at the end of every run;
  * `Guarded`, `Run.unguarded`: the runs all of whose steps meet a condition on
    the state before the step and its label;
  * `Run.append`: runs compose, so "a later point of the run" is a run from an
    earlier one;
  * `Run.related`: a preorder every step respects relates both ends of a run;
  * `run_of_steps`: a list of labels executed by a step function is a run, which
    is how a concrete run is evaluated; `run_of_foldlM` for a function that may
    refuse a label.
-/
import Mathlib.Data.List.Induction
import Mathlib.Tactic.Common

namespace Helpdesk

variable {σ ℓ : Type} {step step' : σ → ℓ → σ → Prop}

inductive Run (step : σ → ℓ → σ → Prop) (s₀ : σ) : List ℓ → σ → Prop where
  | start : Run step s₀ [] s₀
  | next {ls : List ℓ} {s s' : σ} {l : ℓ} (hr : Run step s₀ ls s) (hs : step s l s') :
      Run step s₀ (ls ++ [l]) s'

/-- **The invariant rule.** -/
theorem Run.invariant {I : σ → Prop} {s₀ s : σ} {ls : List ℓ} (hr : Run step s₀ ls s)
    (h0 : I s₀) (hstep : ∀ s l s', I s → step s l s' → I s') : I s := by
  induction hr with
  | start => exact h0
  | next _ hs ih => exact hstep _ _ _ ih hs

/-- Runs are monotone in the step relation. -/
theorem Run.mono (hmono : ∀ s l s', step s l s' → step' s l s') {s₀ s : σ} {ls : List ℓ}
    (hr : Run step s₀ ls s) : Run step' s₀ ls s := by
  induction hr with
  | start => exact .start
  | next _ hs ih => exact .next ih (hmono _ _ _ hs)

theorem Run.append {s₀ s₁ s : σ} {ls ls' : List ℓ} (h : Run step s₀ ls s₁)
    (h' : Run step s₁ ls' s) : Run step s₀ (ls ++ ls') s := by
  induction h' with
  | start => rw [List.append_nil]; exact h
  | next _ hs ih => rw [← List.append_assoc]; exact .next ih hs

/-- A reflexive and transitive relation that every step respects holds between
    the two ends of a run. -/
theorem Run.related {R : σ → σ → Prop} (hrefl : ∀ s, R s s)
    (htrans : ∀ a b c, R a b → R b c → R a c) (hstep : ∀ s l s', step s l s' → R s s')
    {s₀ s : σ} {ls : List ℓ} (hr : Run step s₀ ls s) : R s₀ s := by
  induction hr with
  | start => exact hrefl _
  | next _ hs ih => exact htrans _ _ _ ih (hstep _ _ _ hs)

/-- The steps that meet the condition `G` on the state before them. -/
def Guarded (G : σ → ℓ → Prop) (step : σ → ℓ → σ → Prop) : σ → ℓ → σ → Prop :=
  fun s l s' => G s l ∧ step s l s'

theorem Run.unguarded {G : σ → ℓ → Prop} {s₀ s : σ} {ls : List ℓ}
    (hr : Run (Guarded G step) s₀ ls s) : Run step s₀ ls s :=
  hr.mono fun _ _ _ h => h.2

/-- Labels executed in order by a step function. -/
def execute (next : σ → ℓ → σ) (s : σ) (ls : List ℓ) : σ := ls.foldl next s

/-- **An execution is a run**, when the relation admits every label of the list. -/
theorem run_of_steps {next : σ → ℓ → σ} {ls : List ℓ} (hstep : ∀ l ∈ ls, ∀ s, step s l (next s l))
    (s₀ : σ) : Run step s₀ ls (execute next s₀ ls) := by
  induction ls using List.reverseRecOn with
  | nil => exact .start
  | append_singleton ls l ih =>
      rw [execute, List.foldl_append]
      refine .next (ih fun l' hl' => hstep l' (List.mem_append_left _ hl')) ?_
      exact hstep l (List.mem_append_right _ (List.mem_singleton_self l)) _

/-- **A list of labels that a step function accepts is a run.** -/
theorem run_of_foldlM {next : σ → ℓ → Option σ} {ls : List ℓ} {s₀ s : σ}
    (h : ls.foldlM next s₀ = some s) : Run (fun s l s' => next s l = some s') s₀ ls s := by
  induction ls using List.reverseRecOn generalizing s with
  | nil =>
      obtain rfl : s₀ = s := Option.some.inj h
      exact .start
  | append_singleton ls l ih =>
      rw [List.foldlM_append, Option.bind_eq_bind, Option.bind_eq_some_iff] at h
      obtain ⟨mid, hmid, hlast⟩ := h
      rw [List.foldlM_cons, Option.bind_eq_bind, Option.bind_eq_some_iff] at hlast
      obtain ⟨s', hstep, hend⟩ := hlast
      obtain rfl : s' = s := Option.some.inj hend
      exact .next (ih hmid) hstep

/-- The same for labels that meet a condition. -/
theorem guarded_run_of_foldlM {next : σ → ℓ → Option σ} {G : σ → ℓ → Prop}
    [∀ s l, Decidable (G s l)] {ls : List ℓ} {s₀ s : σ}
    (h : ls.foldlM (fun s l => if G s l then next s l else none) s₀ = some s) :
    Run (Guarded G fun s l s' => next s l = some s') s₀ ls s := by
  refine (run_of_foldlM h).mono fun s l s' hstep => ?_
  by_cases hguard : G s l
  · exact ⟨hguard, by simpa [hguard] using hstep⟩
  · simp [hguard] at hstep

end Helpdesk
