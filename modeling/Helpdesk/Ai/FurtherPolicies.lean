/-
  File:      Helpdesk/Ai/FurtherPolicies.lean
  Subject:   What a further policy does to a refusal (apps/api/app/ai/repository.py).

  The limits of a request are the least ones of all applicable policies, and one that is
  switched off switches AI off: these refusals a further policy cannot lift. The budget is
  that of one policy, the first by scope and time of creation: another policy that comes
  before it brings its own budget, or none.

  * `leastOf_any_iff`: a least limit is reached exactly where some policy's is;
  * `refused_iff`: a request is refused where an applicable policy limits it, or the
    selected one's budget is spent;
  * `selected_of_outranks`: the selected policy comes before all the others;
  * **`refused_with_further_policy`**: over all sets of policies and a further one.
-/
import Helpdesk.Ai.RateLimit
import Helpdesk.Lib.Fallible

namespace Helpdesk.Ai

open Helpdesk.Python

/-! ## 1. What refuses a request -/

/-- The policies that apply to a request under a configuration. -/
def applicableTo (policies : List FeaturePolicy) (now : Instant) (request : Request)
    (c : Configuration) : List FeaturePolicy :=
  policies.filter (·.applicable now request c)

/-- **The policy limits the request**: it switches AI off, or the requests of the last
    minute or the input units go beyond what it allows. -/
def FeaturePolicy.Limits (p : FeaturePolicy) (ledger : List LedgerRow) (now : Instant)
    (request : Request) (promptText : String) : Prop :=
  p.enabledFlag = false ∨
    (∃ limit, p.perUserRequestsPerMinute = some limit ∧
      limit ≤ recentRequests ledger now request.tenantId request.userId) ∨
    ∃ limit, p.maximumInputTokens = some limit ∧ limit < conservativeInputUnits promptText request

variable {policies policies' : List FeaturePolicy} {configurations : List Configuration}
  {ledger : List LedgerRow} {now : Instant} {periods : Periods} {request : Request}
  {row row' : PolicyRow} {settings : Settings} {p q : FeaturePolicy}

/-- A least limit is below a bound exactly where some policy's is. -/
theorem leastOf_any_iff (column : FeaturePolicy → Option Nat) (below : Nat → Bool)
    (hbelow : ∀ a b, a ≤ b → below b = true → below a = true) (policies : List FeaturePolicy) :
    (leastOf column policies).any below = true ↔
      ∃ p ∈ policies, ∃ limit, column p = some limit ∧ below limit = true := by
  rw [leastOf, Option.any_eq_true]
  constructor
  · rintro ⟨least, hleast, hlow⟩
    obtain ⟨p, hp, hcolumn⟩ := List.mem_filterMap.mp (List.min?_mem hleast)
    exact ⟨p, hp, least, hcolumn, hlow⟩
  · rintro ⟨p, hp, limit, hcolumn, hlow⟩
    have hmem : limit ∈ policies.filterMap column := List.mem_filterMap.mpr ⟨p, hp, hcolumn⟩
    obtain ⟨least, hleast⟩ := Option.isSome_iff_exists.mp (List.isSome_min?_of_mem hmem)
    exact ⟨least, hleast, hbelow least limit ((List.min?_eq_some_iff.mp hleast).2 limit hmem) hlow⟩

theorem policyOrder_total (a b : FeaturePolicy) : policyOrder a b ∨ policyOrder b a := by
  rcases Nat.lt_trichotomy a.scopeType.precedence b.scopeType.precedence with h | h | h
  · exact .inr (.inl h)
  · rcases Int.le_total a.createdAt b.createdAt with htime | htime
    · exact .inr (.inr ⟨h.symm, htime⟩)
    · exact .inl (.inr ⟨h, htime⟩)
  · exact .inl (.inl h)

theorem policyOrder_trans {a b c : FeaturePolicy} (hab : policyOrder a b) (hbc : policyOrder b c) :
    policyOrder a c := by
  rcases hab with hab | ⟨hab, htime⟩
  · rcases hbc with hbc | ⟨hbc, -⟩
    · exact .inl (hbc.trans hab)
    · exact .inl (hbc ▸ hab)
  · rcases hbc with hbc | ⟨hbc, htime'⟩
    · exact .inl (hab ▸ hbc)
    · exact .inr ⟨hab.trans hbc, Int.le_trans htime' htime⟩

instance : Std.Total policyOrder := ⟨policyOrder_total⟩

instance : IsTrans FeaturePolicy policyOrder := ⟨fun _ _ _ => policyOrder_trans⟩

/-- What stands in the row: the first of the policies, and the least limits of all. -/
theorem policyRow_eq_some (h : policyRow policies configurations now request = some row) :
    let applicable := applicableTo policies now request row.configuration
    ((configurations.filter (·.selectable now request)).insertionSort configurationOrder).head? =
        some row.configuration ∧
      (row.selected ∈ applicable ∧ ∀ q ∈ applicable, policyOrder row.selected q) ∧
      row.enabled = applicable.all (·.enabledFlag) ∧
      row.maximumInputTokens = leastOf (·.maximumInputTokens) applicable ∧
      row.perUserRequestsPerMinute = leastOf (·.perUserRequestsPerMinute) applicable := by
  unfold policyRow at h
  obtain ⟨c, hc, h⟩ := Option.bind_eq_some_iff.mp h
  obtain ⟨selected, hselected, h⟩ := Option.bind_eq_some_iff.mp h
  obtain rfl := Option.some.inj h
  refine ⟨hc, ?_, rfl, rfl, rfl⟩
  obtain ⟨rest, hsorted⟩ := List.head?_eq_some_iff.mp hselected
  have hperm := List.perm_insertionSort policyOrder (applicableTo policies now request c)
  have hpairwise := List.pairwise_insertionSort policyOrder (applicableTo policies now request c)
  rw [applicableTo, hsorted] at hperm hpairwise
  refine ⟨hperm.mem_iff.mp List.mem_cons_self, fun q hq => ?_⟩
  rcases List.mem_cons.mp (hperm.mem_iff.mpr hq) with rfl | hmem
  · exact (policyOrder_total q q).elim id id
  · exact (List.pairwise_cons.mp hpairwise).1 q hmem

/-- Where a policy applies, there is a row. -/
theorem policyRow_isSome {c : Configuration}
    (hc : ((configurations.filter (·.selectable now request)).insertionSort configurationOrder).head? =
      some c) (hp : p ∈ applicableTo policies now request c) :
    ∃ row, policyRow policies configurations now request = some row := by
  have hne : (applicableTo policies now request c).insertionSort policyOrder ≠ [] := by
    intro hnil
    rw [← List.mem_insertionSort policyOrder, hnil] at hp
    cases hp
  obtain ⟨selected, rest, hsorted⟩ := List.exists_cons_of_ne_nil hne
  unfold policyRow
  rw [hc]
  simp only [Option.bind_eq_bind, Option.bind_some]
  rw [show policies.filter (·.applicable now request c) = applicableTo policies now request c from rfl,
    hsorted]
  exact ⟨_, rfl⟩

/-- The checks before the providers are looked up, of a request without tools. -/
theorem checkPolicy_unavailable_iff (htools : request.toolCount = 0) :
    checkPolicy settings ledger now periods request row = .error .unavailablePolicy ↔
      row.enabled = false ∨
      row.perUserRequestsPerMinute.any
        (· ≤ recentRequests ledger now request.tenantId request.userId) = true ∨
      budgetRemaining ledger periods request.tenantId row.selected = false ∨
      row.maximumInputTokens.any
        (· < conservativeInputUnits row.configuration.promptText request) = true := by
  unfold checkPolicy
  rw [htools]
  dsimp only
  cases row.enabled with
  | false => exact iff_of_true rfl (.inl rfl)
  | true =>
      cases row.perUserRequestsPerMinute.any
          (· ≤ recentRequests ledger now request.tenantId request.userId) with
      | true => exact iff_of_true rfl (.inr (.inl rfl))
      | false =>
          cases budgetRemaining ledger periods request.tenantId row.selected with
          | false => exact iff_of_true rfl (.inr (.inr (.inl rfl)))
          | true =>
              cases row.maximumInputTokens.any
                  (· < conservativeInputUnits row.configuration.promptText request) with
              | true => exact iff_of_true rfl (.inr (.inr (.inr rfl)))
              | false =>
                  -- what is left is about providers
                  refine iff_of_false ?_ (by simp)
                  cases settings.deployed row.configuration.providerAlias
                      row.configuration.modelAlias with
                  | false => exact fun h => nomatch h
                  | true =>
                      cases row.hasFallback &&
                          !settings.deployed (row.configuration.fallbackProviderAlias.getD "")
                            (row.configuration.fallbackModelAlias.getD "") with
                      | true => exact fun h => nomatch h
                      | false => exact fun h => nomatch h

/-- **A request without tools is refused exactly where an applicable policy limits it, or the
    budget of the selected one is spent.** -/
theorem refused_iff (h : policyRow policies configurations now request = some row)
    (htools : request.toolCount = 0) :
    checkPolicy settings ledger now periods request row = .error .unavailablePolicy ↔
      (∃ q ∈ applicableTo policies now request row.configuration,
        q.Limits ledger now request row.configuration.promptText) ∨
      budgetRemaining ledger periods request.tenantId row.selected = false := by
  obtain ⟨-, -, henabled, hinput, hrate⟩ := policyRow_eq_some h
  have hdisabled : row.enabled = false ↔
      ∃ q ∈ applicableTo policies now request row.configuration, q.enabledFlag = false := by
    rw [henabled, List.all_eq_false]
    simp
  have hmany := leastOf_any_iff (·.perUserRequestsPerMinute)
    (· ≤ recentRequests ledger now request.tenantId request.userId)
    (fun a b hab hb => decide_eq_true (hab.trans (of_decide_eq_true hb)))
    (applicableTo policies now request row.configuration)
  have hlong := leastOf_any_iff (·.maximumInputTokens)
    (· < conservativeInputUnits row.configuration.promptText request)
    (fun a b hab hb => decide_eq_true (lt_of_le_of_lt hab (of_decide_eq_true hb)))
    (applicableTo policies now request row.configuration)
  rw [checkPolicy_unavailable_iff htools, hdisabled, hrate, hinput, hmany, hlong]
  simp only [decide_eq_true_eq, FeaturePolicy.Limits]
  constructor
  · rintro (⟨q, hq, h⟩ | ⟨q, hq, h⟩ | h | ⟨q, hq, h⟩)
    · exact .inl ⟨q, hq, .inl h⟩
    · exact .inl ⟨q, hq, .inr (.inl h)⟩
    · exact .inr h
    · exact .inl ⟨q, hq, .inr (.inr h)⟩
  · rintro (⟨q, hq, h | h | h⟩ | h)
    · exact .inl ⟨q, hq, h⟩
    · exact .inr (.inl ⟨q, hq, h⟩)
    · exact .inr (.inr (.inr ⟨q, hq, h⟩))
    · exact .inr (.inr (.inl h))

/-! ## 2. The selected policy -/

/-- Of two policies the first comes before the other, whatever the order of the table. -/
def Outranks (a b : FeaturePolicy) : Prop := ¬ policyOrder b a

theorem mem_applicableTo {c : Configuration} :
    q ∈ applicableTo policies now request c ↔
      q ∈ policies ∧ q.applicable now request c = true :=
  List.mem_filter

/-- A policy that comes before all the others is selected. -/
theorem selected_of_outranks (h : policyRow policies configurations now request = some row)
    (hp : p ∈ applicableTo policies now request row.configuration)
    (hrank : ∀ q ∈ applicableTo policies now request row.configuration, q ≠ p → Outranks p q) :
    row.selected = p := by
  obtain ⟨-, ⟨hmem, hfirst⟩, -⟩ := policyRow_eq_some h
  by_contra hne
  exact hrank row.selected hmem hne (hfirst p hp)

/-! ## 3. A further policy -/

/-- **A refused request stays refused when a further policy applies**, unless its only reason
    was the budget and another policy with a budget left is selected now. A policy that
    comes before all the others, the further one included, stays selected. The tables may
    list their rows in any order. -/
theorem refused_with_further_policy (hrow : policyRow policies configurations now request = some row)
    (hperm : policies'.Perm (p :: policies))
    (happlicable : p.applicable now request row.configuration = true)
    (htools : request.toolCount = 0)
    (hrefused : checkPolicy settings ledger now periods request row = .error .unavailablePolicy) :
    ∃ row', policyRow policies' configurations now request = some row' ∧
      row'.configuration = row.configuration ∧
      ((∃ q ∈ applicableTo policies now request row.configuration,
          q.Limits ledger now request row.configuration.promptText) →
        checkPolicy settings ledger now periods request row' = .error .unavailablePolicy) ∧
      (checkPolicy settings ledger now periods request row' = .error .unavailablePolicy ∨
        budgetRemaining ledger periods request.tenantId row.selected = false ∧
          budgetRemaining ledger periods request.tenantId row'.selected = true ∧
          row'.selected ≠ row.selected) ∧
      ((∀ q ∈ p :: applicableTo policies now request row.configuration, q ≠ row.selected →
          Outranks row.selected q) → row'.selected = row.selected) := by
  obtain ⟨hconfiguration, ⟨hselected, -⟩, -⟩ := policyRow_eq_some hrow
  have hmem : ∀ q, q ∈ applicableTo policies' now request row.configuration ↔
      q ∈ p :: applicableTo policies now request row.configuration := by
    intro q
    rw [mem_applicableTo, hperm.mem_iff, List.mem_cons, List.mem_cons, mem_applicableTo]
    constructor
    · rintro ⟨rfl | hq, hq'⟩
      · exact .inl rfl
      · exact .inr ⟨hq, hq'⟩
    · rintro (rfl | ⟨hq, hq'⟩)
      · exact ⟨.inl rfl, happlicable⟩
      · exact ⟨.inr hq, hq'⟩
  obtain ⟨row', hrow'⟩ := policyRow_isSome hconfiguration ((hmem p).mpr List.mem_cons_self)
  have hsame : row'.configuration = row.configuration :=
    Option.some.inj ((policyRow_eq_some hrow').1.symm.trans hconfiguration)
  have hiff : checkPolicy settings ledger now periods request row' = .error .unavailablePolicy ↔
      (∃ q ∈ applicableTo policies' now request row.configuration,
        q.Limits ledger now request row.configuration.promptText) ∨
      budgetRemaining ledger periods request.tenantId row'.selected = false :=
    hsame ▸ refused_iff hrow' htools
  have hlimited : (∃ q ∈ applicableTo policies now request row.configuration,
      q.Limits ledger now request row.configuration.promptText) →
      checkPolicy settings ledger now periods request row' = .error .unavailablePolicy := by
    rintro ⟨q, hq, hlimits⟩
    exact hiff.mpr (.inl ⟨q, (hmem q).mpr (List.mem_cons_of_mem p hq), hlimits⟩)
  refine ⟨row', hrow', hsame, hlimited, ?_, fun hrank => ?_⟩
  · rcases (refused_iff hrow htools).mp hrefused with h | hspent
    · exact .inl (hlimited h)
    · cases hleft : budgetRemaining ledger periods request.tenantId row'.selected with
      | false => exact .inl (hiff.mpr (.inr hleft))
      | true =>
          refine .inr ⟨hspent, rfl, fun heq => ?_⟩
          rw [heq, hspent] at hleft
          cases hleft
  · refine selected_of_outranks hrow' ?_ fun q hq hne => ?_
    · rw [hsame]
      exact (hmem row.selected).mpr (List.mem_cons_of_mem p hselected)
    · rw [hsame] at hq
      exact hrank q ((hmem q).mp hq) hne

/-! ## 4. A budget that is spent -/

def spentPolicy : FeaturePolicy where
  featurePolicyId := 1
  tenantId := none
  applicationEnvironmentId := none
  agentConfigurationId := none
  useCaseCode := none
  scopeType := .global
  enabledFlag := true
  dailyBudget := some 1
  monthlyBudget := none
  hardStopThresholdPercent := none
  maximumInputTokens := none
  maximumOutputTokens := none
  maximumToolCalls := none
  perUserRequestsPerMinute := none
  approvalStatus := .approved
  effectiveFrom := none
  effectiveTo := none
  createdAt := 0

/-- A policy of the tenant without a budget. -/
def tenantPolicy : FeaturePolicy :=
  { spentPolicy with
    featurePolicyId := 2
    tenantId := some 3
    scopeType := .tenant
    dailyBudget := none }

/-- An older policy for everyone without a budget. -/
def olderPolicy : FeaturePolicy :=
  { spentPolicy with
    featurePolicyId := 3
    dailyBudget := none
    createdAt := -1 }

/-- One answer that cost as much as the budget. -/
def dearAnswer : List LedgerRow := [⟨3, 11, 2, 4, "openai", "standard", 1, 1, 0, 0, 1, 0⟩]

theorem refused_with_older_policy :
    ∃ row', policyRow [olderPolicy, spentPolicy] oncePerMinute.configurations 0 question = some row' ∧
      checkPolicy deployedSettings dearAnswer 0 ⟨0, 0⟩ question row' = .error .unavailablePolicy := by
  obtain ⟨row, hrow, hfirst, hrefused, happlicable⟩ : ∃ row,
      policyRow [spentPolicy] oncePerMinute.configurations 0 question = some row ∧
      row.selected = spentPolicy ∧
      checkPolicy deployedSettings dearAnswer 0 ⟨0, 0⟩ question row = .error .unavailablePolicy ∧
      olderPolicy.applicable 0 question row.configuration = true :=
    ⟨_, rfl, rfl, by decide +kernel, by decide +kernel⟩
  obtain ⟨row', hrow', -, -, hrefused', hselected⟩ := refused_with_further_policy hrow
    (List.Perm.refl [olderPolicy, spentPolicy]) happlicable rfl hrefused
  refine ⟨row', hrow', hrefused'.resolve_right fun hlifted => hlifted.2.2 (hselected ?_)⟩
  intro q hq hne
  rw [hfirst] at hne ⊢
  rcases List.mem_cons.mp hq with rfl | hq
  · unfold Outranks
    decide
  · exact absurd (List.mem_singleton.mp (mem_applicableTo.mp hq).1) hne

/-- **A policy of the tenant without a budget lifts the hard stop of the policy for
    everyone.** -/
theorem tenant_policy_lifts_hard_stop :
    ¬ ∀ (settings : Settings) (ledger : List LedgerRow) (now : Instant) (periods : Periods)
      (request : Request) (policies : List FeaturePolicy) (configurations : List Configuration)
      (p : FeaturePolicy) (row row' : PolicyRow),
      policyRow policies configurations now request = some row →
      p.applicable now request row.configuration = true → request.toolCount = 0 →
      checkPolicy settings ledger now periods request row = .error .unavailablePolicy →
      policyRow (p :: policies) configurations now request = some row' →
      checkPolicy settings ledger now periods request row' = .error .unavailablePolicy := by
  intro hclaim
  have hadmitted := hclaim deployedSettings dearAnswer 0 ⟨0, 0⟩ question [spentPolicy]
    oncePerMinute.configurations tenantPolicy _ _ rfl rfl rfl (by decide +kernel) rfl
  revert hadmitted
  decide +kernel

end Helpdesk.Ai
