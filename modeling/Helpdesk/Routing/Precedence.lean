/-
  File:      Helpdesk/Routing/Precedence.lean
  Subject:   The rule that is selected, whatever the order of the versions.

  `_rule_order` is a strict total order of the rules of a ticket, their ids being
  different, so the sorted candidates do not depend on the list they come from.

  * `candidates_perm`: the candidates of a permuted list are the same;
  * `firstMatch_some`, `firstMatch_none`, `firstMatch_error_iff`: what the search finds;
  * `OrderFree`: the selection is the least rule that matches, from every permutation, and
    is refused with a `RoutingConfigurationError` only;
  * **`order_free_iff`**: unless the search comes to a rule that raises a `TypeError`;
  * `type_error_escapes`: such a rule.
-/
import Helpdesk.Routing.AbsentFields

namespace Helpdesk.Routing

open Helpdesk.Python Helpdesk.Core Json

variable {versions versions' rules : List RoutingRuleVersion} {a b rule : RoutingRuleVersion}
  {values : List (String × Json)} {ticket : RoutingTicket}

/-! ## 1. The order of the rules -/

section Order

variable {x y z : RuleOrder}

theorem RuleOrder.le_total (x y : RuleOrder) : x.le y ∨ y.le x := by
  unfold RuleOrder.le
  have hid := String.le_total x.versionId y.versionId
  by_cases hpriority : x.rulePriority = y.rulePriority
  · by_cases hspecificity : x.specificity = y.specificity
    · by_cases heffective : x.effective = y.effective
      · rcases hid with hle | hle
        · exact .inl (.inr ⟨hpriority, .inr ⟨hspecificity, .inr ⟨heffective, hle⟩⟩⟩)
        · exact .inr (.inr ⟨hpriority.symm, .inr ⟨hspecificity.symm, .inr ⟨heffective.symm, hle⟩⟩⟩)
      · rcases lt_or_gt_of_ne heffective with hlt | hlt
        · exact .inr (.inr ⟨hpriority.symm, .inr ⟨hspecificity.symm, .inl hlt⟩⟩)
        · exact .inl (.inr ⟨hpriority, .inr ⟨hspecificity, .inl hlt⟩⟩)
    · rcases lt_or_gt_of_ne hspecificity with hlt | hlt
      · exact .inr (.inr ⟨hpriority.symm, .inl hlt⟩)
      · exact .inl (.inr ⟨hpriority, .inl hlt⟩)
  · rcases lt_or_gt_of_ne hpriority with hlt | hlt
    · exact .inl (.inl hlt)
    · exact .inr (.inl hlt)

theorem RuleOrder.le_trans (hxy : x.le y) (hyz : y.le z) : x.le z := by
  unfold RuleOrder.le at *
  rcases hxy with hlt | ⟨heq, hxy⟩
  · rcases hyz with hlt' | ⟨heq', -⟩
    · exact .inl (hlt.trans hlt')
    · exact .inl (heq' ▸ hlt)
  · rcases hyz with hlt' | ⟨heq', hyz⟩
    · exact .inl (heq ▸ hlt')
    · refine .inr ⟨heq.trans heq', ?_⟩
      rcases hxy with hlt | ⟨heq, hxy⟩
      · rcases hyz with hlt' | ⟨heq', -⟩
        · exact .inl (hlt'.trans hlt)
        · exact .inl (heq' ▸ hlt)
      · rcases hyz with hlt' | ⟨heq', hyz⟩
        · exact .inl (heq ▸ hlt')
        · refine .inr ⟨heq.trans heq', ?_⟩
          rcases hxy with hlt | ⟨heq, hxy⟩
          · rcases hyz with hlt' | ⟨heq', -⟩
            · exact .inl (hlt'.trans hlt)
            · exact .inl (heq' ▸ hlt)
          · rcases hyz with hlt' | ⟨heq', hyz⟩
            · exact .inl (heq ▸ hlt')
            · exact .inr ⟨heq.trans heq', String.le_trans hxy hyz⟩

/-- Orders that go both ways are of one version. -/
theorem RuleOrder.versionId_of_le (hxy : x.le y) (hyx : y.le x) : x.versionId = y.versionId := by
  unfold RuleOrder.le at hxy hyx
  rcases hxy with hlt | ⟨heq, hxy⟩
  · rcases hyx with hlt' | ⟨heq', -⟩ <;> omega
  · rcases hyx with hlt' | ⟨-, hyx⟩
    · omega
    · rcases hxy with hlt | ⟨heq, hxy⟩
      · rcases hyx with hlt' | ⟨heq', -⟩ <;> omega
      · rcases hyx with hlt' | ⟨-, hyx⟩
        · omega
        · rcases hxy with hlt | ⟨heq, hxy⟩
          · rcases hyx with hlt' | ⟨heq', -⟩
            · exact absurd hlt' (lt_asymm hlt)
            · exact absurd hlt (heq' ▸ lt_irrefl _)
          · rcases hyx with hlt' | ⟨-, hyx⟩
            · exact absurd hlt' (heq ▸ lt_irrefl _)
            · exact String.le_antisymm hxy hyx

end Order

/-- The rules that are not a default. -/
def nondefaults (versions : List RoutingRuleVersion) : List RoutingRuleVersion :=
  versions.filter fun r => !isEmptyCondition r.condition

/-- Rows of a table whose primary key is a UUID. -/
def Keyed (versions : List RoutingRuleVersion) : Prop :=
  (versions.map (·.routingRuleVersionId)).Nodup ∧
    ∀ r ∈ versions, r.routingRuleVersionId < 2 ^ 128

/-- `_rule_order(a) <= _rule_order(b)` -/
def Precedes (a b : RoutingRuleVersion) : Prop :=
  ∃ x y, ruleOrder a = .ok x ∧ ruleOrder b = .ok y ∧ x.le y

/-- `_rule_order(a) < _rule_order(b)` -/
def Before (a b : RoutingRuleVersion) : Prop :=
  ∃ x y, ruleOrder a = .ok x ∧ ruleOrder b = .ok y ∧ ¬ y.le x

theorem Keyed.perm (h : Keyed versions) (hperm : versions'.Perm versions) : Keyed versions' :=
  ⟨(hperm.map _).nodup_iff.mpr h.1, fun r hr => h.2 r (hperm.mem_iff.mp hr)⟩

theorem ruleOrder_versionId {x : RuleOrder} (h : ruleOrder a = .ok x) :
    x.versionId = uuidText a.routingRuleVersionId := by
  obtain ⟨n, -, h⟩ := bind_eq_ok.mp h
  rw [← pure_eq_ok.mp h]

/-- **The order is antisymmetric** on the rows of a table. -/
theorem Precedes.antisymm (hkeyed : Keyed versions) (ha : a ∈ versions) (hb : b ∈ versions)
    (hab : Precedes a b) (hba : Precedes b a) : a = b := by
  obtain ⟨x, y, hx, hy, hxy⟩ := hab
  obtain ⟨y', x', hy', hx', hyx⟩ := hba
  obtain rfl := Except.ok.inj (hx.symm.trans hx')
  obtain rfl := Except.ok.inj (hy.symm.trans hy')
  have htext : uuidText a.routingRuleVersionId = uuidText b.routingRuleVersionId := by
    rw [← ruleOrder_versionId hx, ← ruleOrder_versionId hy]
    exact RuleOrder.versionId_of_le hxy hyx
  have hid := uuidText_injective (hkeyed.2 a ha) (hkeyed.2 b hb) htext
  exact List.inj_on_of_nodup_map hkeyed.1 ha hb hid

theorem Precedes.before (hkeyed : Keyed versions) (ha : a ∈ versions) (hb : b ∈ versions)
    (hab : Precedes a b) (hne : a ≠ b) : Before a b := by
  obtain ⟨x, y, hx, hy, hxy⟩ := hab
  exact ⟨x, y, hx, hy, fun hyx => hne (Precedes.antisymm hkeyed ha hb ⟨x, y, hx, hy, hxy⟩
    ⟨y, x, hy, hx, hyx⟩)⟩

theorem Before.not_precedes (hab : Before a b) : ¬ Precedes b a := by
  rintro ⟨y', x', hy', hx', hyx⟩
  obtain ⟨x, y, hx, hy, hnot⟩ := hab
  obtain rfl := Except.ok.inj (hx.symm.trans hx')
  obtain rfl := Except.ok.inj (hy.symm.trans hy')
  exact hnot hyx

/-! ## 2. The candidates -/

def invalidSyntax : SelectError := .configuration "A routing rule has invalid condition syntax."

/-- What the language does not have is refused in one way. -/
theorem specificity_error (condition : Json) : ∀ e, specificity condition = .error e → e = invalidSyntax := by
  refine specificity.induct
    (fun rule => ∀ e, specificity rule = .error e → e = invalidSyntax)
    (fun items => ∀ e, specificities items = .error e → e = invalidSyntax)
    ?null ?list ?empty ?group ?other ?leaf ?noKeys ?scalar ?nil ?cons condition
  case null =>
    intro e h
    simp [specificity] at h
  case list =>
    intro items ih e h
    rw [specificity] at h
    exact ih e h
  case empty =>
    intro e h
    simp [specificity] at h
  case group =>
    intro key items hkey ih e h
    rw [specificity, if_pos hkey] at h
    exact ih e h
  case other =>
    intro key items hkey e h
    rw [specificity, if_neg hkey] at h
    exact (Except.error.inj h).symm
  case leaf =>
    intro items hempty hsingle keys hkeys e h
    rw [specificity] at h
    · simp only [keys] at hkeys
      rw [if_pos hkeys] at h
      cases h
    all_goals assumption
  case noKeys =>
    intro items hempty hsingle keys hkeys e h
    rw [specificity] at h
    · simp only [keys] at hkeys
      rw [if_neg hkeys] at h
      exact (Except.error.inj h).symm
    all_goals assumption
  case scalar =>
    intro rule hnull hlist hempty hsingle hdict e h
    rw [specificity] at h
    · exact (Except.error.inj h).symm
    all_goals assumption
  case nil =>
    intro e h
    simp [specificities] at h
  case cons =>
    intro item rest ih ihRest e h
    rw [specificities, bind_eq_error] at h
    rcases h with h | ⟨n, -, h⟩
    · exact ih e h
    · rw [bind_eq_error] at h
      rcases h with h | ⟨m, -, h⟩
      · exact ihRest e h
      · cases h

/-- Every rule that is not a default has an order. -/
def Ordered (versions : List RoutingRuleVersion) : Prop :=
  ∀ r ∈ nondefaults versions, ∃ x, ruleOrder r = .ok x

theorem Ordered.perm (h : Ordered versions) (hperm : versions'.Perm versions) : Ordered versions' :=
  fun r hr => h r ((hperm.filter _).mem_iff.mp hr)

/-- **The candidates** are the rules that are not a default, in their order. -/
theorem candidates_ok (h : candidates versions = .ok rules) :
    Ordered versions ∧ rules.Perm (nondefaults versions) ∧ rules.Pairwise Precedes := by
  obtain ⟨keyed, hkeyed, h⟩ := bind_eq_ok.mp h
  obtain rfl := pure_eq_ok.mp h
  have hpointwise := mapM_pointwise hkeyed
  have hpair : ∀ {r : RoutingRuleVersion} {pair : RuleOrder × RoutingRuleVersion},
      (do return (← ruleOrder r, r) : Except SelectError _) = .ok pair →
        ruleOrder r = .ok pair.1 ∧ pair.2 = r := by
    intro r pair h
    obtain ⟨x, hx, h⟩ := bind_eq_ok.mp h
    obtain rfl := pure_eq_ok.mp h
    exact ⟨hx, rfl⟩
  have hordered : Ordered versions := by
    intro r hr
    have hmem : ∀ {rs : List RoutingRuleVersion} {pairs : List (RuleOrder × RoutingRuleVersion)},
        List.Forall₂ (fun r pair => (do return (← ruleOrder r, r) : Except SelectError _) = .ok pair)
          rs pairs → r ∈ rs → ∃ x, ruleOrder r = .ok x := by
      intro rs pairs hall hr
      induction hall with
      | nil => cases hr
      | cons h _ ih =>
          rcases List.mem_cons.mp hr with rfl | hr
          · exact ⟨_, (hpair h).1⟩
          · exact ih hr
    exact hmem hpointwise hr
  have hsnd : keyed.map (·.2) = nondefaults versions := by
    have hmap : ∀ {rs : List RoutingRuleVersion} {pairs : List (RuleOrder × RoutingRuleVersion)},
        List.Forall₂ (fun r pair => (do return (← ruleOrder r, r) : Except SelectError _) = .ok pair)
          rs pairs → pairs.map (·.2) = rs := by
      intro rs pairs hall
      induction hall with
      | nil => rfl
      | cons h _ ih => rw [List.map_cons, ih, (hpair h).2]
    exact hmap hpointwise
  refine ⟨hordered, ?_, ?_⟩
  · rw [← hsnd]
    exact (List.perm_insertionSort _ keyed).map _
  · rw [List.pairwise_map]
    have : Std.Total fun p q : RuleOrder × RoutingRuleVersion => p.1.le q.1 :=
      ⟨fun p q => RuleOrder.le_total p.1 q.1⟩
    have : IsTrans (RuleOrder × RoutingRuleVersion) fun p q => p.1.le q.1 :=
      ⟨fun _ _ _ => RuleOrder.le_trans⟩
    have hsorted := List.pairwise_insertionSort
      (fun p q : RuleOrder × RoutingRuleVersion => p.1.le q.1) keyed
    refine hsorted.imp_of_mem fun {p q} hp hq hle => ?_
    have horder : ∀ pair ∈ keyed, ruleOrder pair.2 = .ok pair.1 := by
      intro pair hmem
      obtain ⟨r, -, hr⟩ := mem_of_forall₂ hpointwise hmem
      obtain ⟨hx, rfl⟩ := hpair hr
      exact hx
    exact ⟨p.1, q.1, horder p ((List.mem_insertionSort _).mp hp),
      horder q ((List.mem_insertionSort _).mp hq), hle⟩

theorem candidates_error {e : SelectError} (h : candidates versions = .error e) :
    ¬ Ordered versions ∧ e = invalidSyntax := by
  rcases bind_eq_error.mp h with h | ⟨keyed, -, h⟩
  · obtain ⟨r, hr, h⟩ := mapM_error h
    rcases bind_eq_error.mp h with h | ⟨x, -, h⟩
    · refine ⟨fun hordered => ?_, ?_⟩
      · obtain ⟨x, hx⟩ := hordered r hr
        rw [hx] at h
        cases h
      · rcases bind_eq_error.mp h with h | ⟨n, -, h⟩
        · exact specificity_error _ e h
        · cases h
    · cases h
  · cases h

/-- **The candidates of a permuted list are the same.** -/
theorem candidates_perm (hkeyed : Keyed versions) (hperm : versions'.Perm versions) :
    candidates versions' = candidates versions := by
  cases h : candidates versions with
  | ok rules =>
      obtain ⟨hordered, hrules, hsorted⟩ := candidates_ok h
      cases h' : candidates versions' with
      | ok rules' =>
          obtain ⟨-, hrules', hsorted'⟩ := candidates_ok h'
          have hsame : rules'.Perm rules :=
            hrules'.trans ((hperm.filter _).trans hrules.symm)
          have hmem : ∀ r ∈ rules, r ∈ versions := fun r hr =>
            (List.mem_filter.mp (hrules.mem_iff.mp hr)).1
          refine congrArg Except.ok (hsame.eq_of_pairwise (fun a b ha hb => ?_) hsorted' hsorted)
          exact Precedes.antisymm hkeyed (hmem a (hsame.mem_iff.mp ha)) (hmem b hb)
      | error e => exact absurd (hordered.perm hperm) (candidates_error h').1
  | error e =>
      obtain ⟨hunordered, rfl⟩ := candidates_error h
      cases h' : candidates versions' with
      | ok rules' => exact absurd ((candidates_ok h').1.perm hperm.symm) hunordered
      | error e' => rw [(candidates_error h').2]

/-! ## 3. The search -/

theorem firstMatch_some {evaluated : List Evaluated}
    (h : firstMatch values rules = .ok (some rule, evaluated)) :
    ∃ earlier later, rules = earlier ++ rule :: later ∧
      (∀ r ∈ earlier, evaluate r.condition values = .ok false) ∧
      evaluate rule.condition values = .ok true := by
  induction rules generalizing evaluated with
  | nil => cases h
  | cons r rest ih =>
      obtain ⟨met, hmet, h⟩ := bind_eq_ok.mp h
      cases met with
      | true =>
          obtain ⟨hrule, -⟩ := Prod.mk.inj (Except.ok.inj h)
          obtain rfl := Option.some.inj hrule
          exact ⟨[], rest, rfl, nofun, hmet⟩
      | false =>
          obtain ⟨⟨found, evaluated'⟩, hfound, h⟩ := bind_eq_ok.mp h
          obtain ⟨rfl, -⟩ := Prod.mk.inj (Except.ok.inj h)
          obtain ⟨earlier, later, rfl, hearlier, hrule⟩ := ih hfound
          exact ⟨r :: earlier, later, rfl, List.forall_mem_cons.mpr ⟨hmet, hearlier⟩, hrule⟩

theorem firstMatch_none {evaluated : List Evaluated}
    (h : firstMatch values rules = .ok (none, evaluated)) :
    ∀ r ∈ rules, evaluate r.condition values = .ok false := by
  induction rules generalizing evaluated with
  | nil => nofun
  | cons r rest ih =>
      obtain ⟨met, hmet, h⟩ := bind_eq_ok.mp h
      cases met with
      | true => cases h
      | false =>
          obtain ⟨⟨found, evaluated'⟩, hfound, h⟩ := bind_eq_ok.mp h
          obtain ⟨rfl, -⟩ := Prod.mk.inj (Except.ok.inj h)
          exact List.forall_mem_cons.mpr ⟨hmet, ih hfound⟩

/-- The search raises what its first rule raises that does not evaluate to false. -/
theorem firstMatch_error_iff {e : RuleError} :
    firstMatch values rules = .error e ↔ ∃ earlier rule later, rules = earlier ++ rule :: later ∧
      (∀ r ∈ earlier, evaluate r.condition values = .ok false) ∧
      evaluate rule.condition values = .error e := by
  constructor
  · intro h
    induction rules with
    | nil => cases h
    | cons r rest ih =>
        rcases bind_eq_error.mp h with h | ⟨met, hmet, h⟩
        · exact ⟨[], r, rest, rfl, nofun, h⟩
        · cases met with
          | true => cases h
          | false =>
              rcases bind_eq_error.mp h with h | ⟨found, -, h⟩
              · obtain ⟨earlier, rule, later, rfl, hearlier, hrule⟩ := ih h
                exact ⟨r :: earlier, rule, later, rfl,
                  List.forall_mem_cons.mpr ⟨hmet, hearlier⟩, hrule⟩
              · cases h
  · rintro ⟨earlier, rule, later, rfl, hearlier, hrule⟩
    induction earlier with
    | nil =>
        rw [List.nil_append, firstMatch, hrule]
        rfl
    | cons r earlier ih =>
        rw [List.forall_mem_cons] at hearlier
        rw [List.cons_append, firstMatch, hearlier.1]
        exact bind_eq_error.mpr (.inr ⟨false, rfl, bind_eq_error.mpr (.inl (ih hearlier.2))⟩)

/-! ## 4. The selection -/

/-- A rule that raises a `TypeError`, before which no rule matches or is refused. -/
def RaisesFirst (versions : List RoutingRuleVersion) (values : List (String × Json)) : Prop :=
  Configured versions ∧ Ordered versions ∧ ∃ rule ∈ nondefaults versions,
    evaluate rule.condition values = .error .typeError ∧
      ∀ r ∈ nondefaults versions, Before r rule → evaluate r.condition values = .ok false

/-- **A selection that does not depend on the order of the versions.** -/
structure OrderFree (versions : List RoutingRuleVersion) (ticket : RoutingTicket) : Prop where
  same : ∀ versions', versions'.Perm versions → selectRule versions' ticket = selectRule versions ticket
  refused : ∀ e, selectRule versions ticket = .error e → ∃ message, e = .configuration message
  /-- the least rule that matches -/
  least : ∀ s, selectRule versions ticket = .ok s → s.fallback = false →
    s.rule ∈ nondefaults versions ∧ evaluate s.rule.condition (routingValues ticket) = .ok true ∧
      ∀ r ∈ nondefaults versions, evaluate r.condition (routingValues ticket) = .ok true →
        r ≠ s.rule → Before s.rule r
  default : ∀ s, selectRule versions ticket = .ok s → s.fallback = true →
    ∀ r ∈ nondefaults versions, evaluate r.condition (routingValues ticket) ≠ .ok true

theorem Keyed.nodup (hkeyed : Keyed versions) : (nondefaults versions).Nodup :=
  hkeyed.1.of_map.filter _

/-- The rules before one of the candidates. -/
theorem mem_earlier_iff {earlier later : List RoutingRuleVersion} (hkeyed : Keyed versions)
    (hrules : (earlier ++ rule :: later).Perm (nondefaults versions))
    (hsorted : (earlier ++ rule :: later).Pairwise Precedes) {r : RoutingRuleVersion}
    (hr : r ∈ nondefaults versions) : r ∈ earlier ↔ Before r rule := by
  have hmem : ∀ r ∈ earlier ++ rule :: later, r ∈ versions := fun r hr =>
    (List.mem_filter.mp (hrules.mem_iff.mp hr)).1
  have hnodup := hrules.nodup_iff.mpr hkeyed.nodup
  rw [List.pairwise_append, List.pairwise_cons] at hsorted
  obtain ⟨-, ⟨hlater, -⟩, hearlier⟩ := hsorted
  constructor
  · intro hmember
    refine (hearlier r hmember rule List.mem_cons_self).before hkeyed
      (hmem r (List.mem_append_left _ hmember)) (hmem rule (by simp)) ?_
    rintro rfl
    exact (List.disjoint_of_nodup_append hnodup) hmember List.mem_cons_self
  · intro hbefore
    have hrule : r ∈ earlier ++ rule :: later := hrules.mem_iff.mpr hr
    rcases List.mem_append.mp hrule with hearly | hlate
    · exact hearly
    · rcases List.mem_cons.mp hlate with rfl | hlate
      · obtain ⟨x, y, hx, hy, hnot⟩ := hbefore
        obtain rfl := Except.ok.inj (hx.symm.trans hy)
        exact absurd ((RuleOrder.le_total x x).elim id id) hnot
      · exact absurd (hlater r hlate) hbefore.not_precedes

theorem duplicated_perm (hperm : versions'.Perm versions) : duplicated versions' = duplicated versions := by
  unfold duplicated
  rw [Bool.eq_iff_iff, List.any_eq_true, List.any_eq_true]
  refine exists_congr fun r => and_congr hperm.mem_iff ?_
  rw [hperm.countP_eq]

/-- **A permutation is selected from alike.** -/
theorem selectRule_perm (hkeyed : Keyed versions) (hperm : versions'.Perm versions) :
    selectRule versions' ticket = selectRule versions ticket := by
  have hdefaults : (defaults versions').Perm (defaults versions) := hperm.filter _
  unfold selectRule selectAmong
  rw [duplicated_perm hperm, candidates_perm hkeyed hperm]
  cases hone : defaults versions with
  | nil =>
      rw [hone] at hdefaults
      rw [hdefaults.eq_nil]
  | cons default rest =>
      cases rest with
      | nil =>
          rw [hone] at hdefaults
          rw [hdefaults.eq_singleton]
      | cons other rest =>
          have hlength := hdefaults.length_eq
          rw [hone] at hlength
          match hmany : defaults versions' with
          | [] => simp [hmany] at hlength
          | [_] => simp [hmany] at hlength
          | _ :: _ :: _ => rfl

/-- What becomes of a selection. -/
theorem selectRule_cases (versions : List RoutingRuleVersion) (ticket : RoutingTicket) :
    (∃ message, selectRule versions ticket = .error (.configuration message) ∧
      ¬ (Configured versions ∧ Ordered versions)) ∨
    ∃ rules default, Configured versions ∧ candidates versions = .ok rules ∧
      selectRule versions ticket = match firstMatch (routingValues ticket) rules with
        | .ok (some rule, evaluated) => .ok ⟨rule, false, evaluated⟩
        | .ok (none, evaluated) =>
            .ok ⟨default, true, evaluated ++ [⟨default.routingRuleVersionId, true, true⟩]⟩
        | .error (.invalidRule _) => .error (.configuration
            "A published routing rule contains unsupported deterministic configuration.")
        | .error .typeError => .error .typeError := by
  by_cases hconfigured : Configured versions
  · cases hcandidates : candidates versions with
    | ok rules =>
        obtain ⟨default, hselect⟩ := selectAmong_configured hconfigured hcandidates
        exact .inr ⟨rules, default, hconfigured, rfl, hselect _⟩
    | error e =>
        obtain ⟨hunordered, rfl⟩ := candidates_error hcandidates
        obtain ⟨hunique, hdefault⟩ := hconfigured
        obtain ⟨default, hdefault⟩ := List.length_eq_one_iff.mp hdefault
        refine .inl ⟨"A routing rule has invalid condition syntax.", ?_, fun h => hunordered h.2⟩
        rw [selectRule, selectAmong, hunique, hdefault]
        simp only [Bool.false_eq_true, if_false, hcandidates]
        rfl
  · have hnot : ¬ (Configured versions ∧ Ordered versions) := fun h => hconfigured h.1
    unfold selectRule selectAmong
    cases hduplicated : duplicated versions with
    | true => exact .inl ⟨_, rfl, hnot⟩
    | false =>
        cases hdefault : defaults versions with
        | nil => exact .inl ⟨_, rfl, hnot⟩
        | cons default others =>
            cases others with
            | nil => exact absurd ⟨hduplicated, by rw [hdefault]; rfl⟩ hconfigured
            | cons => exact .inl ⟨_, rfl, hnot⟩

/-- **When a selection does not depend on the order of the versions.** -/
theorem order_free_iff (hkeyed : Keyed versions) (ticket : RoutingTicket) :
    OrderFree versions ticket ↔ ¬ RaisesFirst versions (routingValues ticket) := by
  have hsplit : ∀ {rules earlier later rule}, candidates versions = .ok rules →
      rules = earlier ++ rule :: later → (earlier ++ rule :: later).Perm (nondefaults versions) ∧
        (earlier ++ rule :: later).Pairwise Precedes := by
    intro rules earlier later rule hcandidates hrules
    obtain ⟨-, hperm, hsorted⟩ := candidates_ok hcandidates
    exact ⟨hrules ▸ hperm, hrules ▸ hsorted⟩
  constructor
  · rintro hfree ⟨hconfigured, hordered, rule, hrule, hraises, hbefore⟩
    rcases selectRule_cases versions ticket with ⟨_, -, hnot⟩ | ⟨rules, default, -, hcandidates, hselect⟩
    · exact hnot ⟨hconfigured, hordered⟩
    · have hmem : rule ∈ rules := (candidates_ok hcandidates).2.1.mem_iff.mpr hrule
      obtain ⟨earlier, later, hrules⟩ := List.append_of_mem hmem
      obtain ⟨hperm, hsorted⟩ := hsplit hcandidates hrules
      have hearlier : ∀ r ∈ earlier, evaluate r.condition (routingValues ticket) = .ok false := by
        intro r hr
        have hr' : r ∈ nondefaults versions := hperm.mem_iff.mp (List.mem_append_left _ hr)
        exact hbefore r hr' ((mem_earlier_iff hkeyed hperm hsorted hr').mp hr)
      have herror : firstMatch (routingValues ticket) rules = .error .typeError :=
        firstMatch_error_iff.mpr ⟨earlier, rule, later, hrules, hearlier, hraises⟩
      rw [herror] at hselect
      obtain ⟨message, hmessage⟩ := hfree.refused _ hselect
      cases hmessage
  · intro hraises
    refine ⟨fun versions' hperm => selectRule_perm hkeyed hperm, ?_, ?_, ?_⟩
    · intro e he
      rcases selectRule_cases versions ticket with
        ⟨message, hselect, -⟩ | ⟨rules, default, hconfigured, hcandidates, hselect⟩
      · rw [hselect] at he
        exact ⟨message, (Except.error.inj he).symm⟩
      · rw [hselect] at he
        split at he
        · cases he
        · cases he
        · exact ⟨_, (Except.error.inj he).symm⟩
        · next herror =>
            obtain ⟨earlier, rule, later, hrules, hearlier, hrule⟩ := firstMatch_error_iff.mp herror
            obtain ⟨hperm, hsorted⟩ := hsplit hcandidates hrules
            refine absurd ⟨hconfigured, (candidates_ok hcandidates).1, rule, ?_, hrule, ?_⟩ hraises
            · exact hperm.mem_iff.mp (by simp)
            · exact fun r hr hbefore =>
                hearlier r ((mem_earlier_iff hkeyed hperm hsorted hr).mpr hbefore)
    · intro s hs hfallback
      rcases selectRule_cases versions ticket with
        ⟨message, hselect, -⟩ | ⟨rules, default, hconfigured, hcandidates, hselect⟩
      · rw [hselect] at hs
        cases hs
      · rw [hselect] at hs
        split at hs
        · next rule evaluated hfound =>
            obtain rfl := Except.ok.inj hs
            obtain ⟨earlier, later, hrules, hearlier, hrule⟩ := firstMatch_some hfound
            obtain ⟨hperm, hsorted⟩ := hsplit hcandidates hrules
            refine ⟨hperm.mem_iff.mp (by simp), hrule, fun r hr hmatches hne => ?_⟩
            have hsorted' := hsorted
            rw [List.pairwise_append, List.pairwise_cons] at hsorted'
            rcases List.mem_append.mp (hperm.mem_iff.mpr hr) with hearly | hlate
            · rw [hearlier r hearly] at hmatches
              cases hmatches
            · have hlater : r ∈ later := (List.mem_cons.mp hlate).resolve_left hne
              have hmem : ∀ r ∈ nondefaults versions, r ∈ versions := fun r hr =>
                (List.mem_filter.mp hr).1
              exact (hsorted'.2.1.1 r hlater).before hkeyed
                (hmem rule (hperm.mem_iff.mp (by simp))) (hmem r hr) (Ne.symm hne)
        · obtain rfl := Except.ok.inj hs
          cases hfallback
        · cases hs
        · cases hs
    · intro s hs hfallback r hr hmatches
      rcases selectRule_cases versions ticket with
        ⟨message, hselect, -⟩ | ⟨rules, default, hconfigured, hcandidates, hselect⟩
      · rw [hselect] at hs
        cases hs
      · rw [hselect] at hs
        split at hs
        · obtain rfl := Except.ok.inj hs
          cases hfallback
        · next evaluated hnone =>
            have hmem : r ∈ rules := (candidates_ok hcandidates).2.1.mem_iff.mpr hr
            rw [firstMatch_none hnone r hmem] at hmatches
            cases hmatches
        · cases hs
        · cases hs

theorem order_free_iff_ledger :
    OrderFree ledgerRules (ledgerTicket [("affected_ledger", .str "UK01")]) ↔
      ¬ RaisesFirst ledgerRules
        (routingValues (ledgerTicket [("affected_ledger", .str "UK01")])) :=
  order_free_iff ⟨by decide +kernel, by decide +kernel⟩ _

/-- A rule that looks for a number in a text. -/
def numberInSummary : List RoutingRuleVersion :=
  [ledgerRule 5 10 (.dict [("field", .str "summary"), ("operator", .str "contains"),
      ("value", .int 5)]),
   ledgerRule 6 9999 (.dict [])]

/-- **The `TypeError` of an operator escapes.** -/
theorem type_error_escapes :
    ¬ ∀ (versions : List RoutingRuleVersion) (ticket : RoutingTicket), Keyed versions →
      OrderFree versions ticket := by
  intro hclaim
  have hfree := hclaim numberInSummary (ledgerTicket []) ⟨by decide +kernel, by decide +kernel⟩
  have hraises : selectRule numberInSummary (ledgerTicket []) = .error .typeError := by rfl
  obtain ⟨message, hmessage⟩ := hfree.refused _ hraises
  cases hmessage

end Helpdesk.Routing
