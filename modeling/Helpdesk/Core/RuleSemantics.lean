/-
  File:      Helpdesk/Core/RuleSemantics.lean
  Subject:   What a rule means, and where its evaluation goes wrong.

  The meaning of a rule is a relation: a list or an `all` is true where all its items
  are, and false from the first false item on; an `any` the other way round. Evaluation
  comes to a leaf past the items it has to look at, and raises a `TypeError` at one whose
  operator cannot be looked up or whose text is asked for something that is no text.

  * `yields_iff`: the evaluator returns what the relation gives;
  * `evaluateLeaf_typeError_iff`: the leaves that raise;
  * **`evaluate_typeError_iff`**: over all rules and values.
-/
import Helpdesk.Core.Rules
import Helpdesk.Lib.Fallible

namespace Helpdesk.Core

open Helpdesk.Python Json

/-! ## 1. The language -/

/-- What a rule is for the evaluator. -/
inductive Shape where
  | holds
  | all (items : List Json)
  | any (items : List Json)
  | leaf (items : List (String × Json))
  | refused (message : String)

def shape : Json → Shape
  | .null => .holds
  | .list items => .all items
  | .dict [] => .holds
  | .dict [(key, .list items)] =>
      if key = "all" then .all items
      else if key = "any" then .any items
      else .refused "Rule leaf contains unsupported properties."
  | .dict items => .leaf items
  | _ => .refused "Rules must be JSON objects or arrays."

/-- **The rule has the truth value.** -/
inductive Yields (values : List (String × Json)) : Json → Bool → Prop
  | holds {rule} (h : shape rule = .holds) : Yields values rule true
  | all {rule items} (h : shape rule = .all items) (hitems : ∀ item ∈ items, Yields values item true) :
      Yields values rule true
  | allFalse {rule before item after} (h : shape rule = .all (before ++ item :: after))
      (hbefore : ∀ earlier ∈ before, Yields values earlier true) (hitem : Yields values item false) :
      Yields values rule false
  | any {rule items} (h : shape rule = .any items) (hitems : ∀ item ∈ items, Yields values item false) :
      Yields values rule false
  | anyTrue {rule before item after} (h : shape rule = .any (before ++ item :: after))
      (hbefore : ∀ earlier ∈ before, Yields values earlier false) (hitem : Yields values item true) :
      Yields values rule true
  | leaf {rule items b} (h : shape rule = .leaf items) (hleaf : evaluateLeaf items values = .ok b) :
      Yields values rule b

/-- **Evaluation comes to the leaf**: the items before it are true in an `all` and false
    in an `any`. -/
inductive Reaches (values : List (String × Json)) : Json → List (String × Json) → Prop
  | leaf {rule leaf} (h : shape rule = .leaf leaf) : Reaches values rule leaf
  | all {rule before item after leaf} (h : shape rule = .all (before ++ item :: after))
      (hbefore : ∀ earlier ∈ before, Yields values earlier true) (hitem : Reaches values item leaf) :
      Reaches values rule leaf
  | any {rule before item after leaf} (h : shape rule = .any (before ++ item :: after))
      (hbefore : ∀ earlier ∈ before, Yields values earlier false) (hitem : Reaches values item leaf) :
      Reaches values rule leaf

/-- The properties of a leaf, with a text for its field. -/
def LeafOn (field : String) (leaf : List (String × Json)) : Prop :=
  "field" ∈ leaf.map (·.1) ∧ "operator" ∈ leaf.map (·.1) ∧
    (∀ key ∈ leaf.map (·.1), key ∈ ["field", "operator", "value"]) ∧
    getD leaf "field" = .str field

/-- **A leaf of the wrong type**: its operator is a list or an object, or it asks whether
    a text contains what is no text. -/
inductive Mistyped (values : List (String × Json)) : List (String × Json) → Prop
  | operatorList {field leaf names} (h : LeafOn field leaf) (hop : getD leaf "operator" = .list names) :
      Mistyped values leaf
  | operatorDict {field leaf names} (h : LeafOn field leaf) (hop : getD leaf "operator" = .dict names) :
      Mistyped values leaf
  | contains {field leaf text} (h : LeafOn field leaf) (hop : getD leaf "operator" = .str "contains")
      (hactual : lookup field values = some (.str text))
      (hexpected : ∀ part, getD leaf "value" ≠ .str part) : Mistyped values leaf

/-- Evaluation comes to a leaf of the wrong type. -/
def Stumbles (values : List (String × Json)) (rule : Json) : Prop :=
  ∃ leaf, Reaches values rule leaf ∧ Mistyped values leaf

/-! ## 2. The evaluator by shapes -/

variable {values : List (String × Json)} {rule item : Json} {items : List Json} {b : Bool}
  {leaf : List (String × Json)}

theorem evaluate_shape (rule : Json) (values : List (String × Json)) :
    evaluate rule values = match shape rule with
      | .holds => .ok true
      | .all items => evaluateAll items values
      | .any items => evaluateAny items values
      | .leaf items => evaluateLeaf items values
      | .refused message => .error (.invalidRule message) := by
  fun_cases shape rule
  case case4 => simp [evaluate]
  case case5 => simp [evaluate]
  case case6 key items hall hany => simp [evaluate, hall, hany]
  case case7 items hempty hsingle =>
    rw [evaluate]
    · exact hempty
    · exact hsingle
  case case8 hnull hlist hempty hsingle hdict =>
    rw [evaluate]
    all_goals assumption
  all_goals simp [evaluate]

/-- An induction over the rules inside a rule. -/
theorem rule_induction {P : Json → Prop}
    (h : ∀ rule, (∀ items, shape rule = .all items ∨ shape rule = .any items →
      ∀ item ∈ items, P item) → P rule) (rule : Json) : P rule := by
  have hscalar : ∀ rule, (∀ items, shape rule ≠ .all items ∧ shape rule ≠ .any items) → P rule :=
    fun rule hnot => h rule fun items hitems =>
      absurd hitems (not_or.mpr (hnot items))
  refine evaluate.induct P (fun items => ∀ item ∈ items, P item) (fun items => ∀ item ∈ items, P item)
    ?null ?list ?empty ?all ?any ?other ?leaf ?scalar ?anyNil ?anyCons ?allNil ?allCons rule
  case null => exact hscalar _ fun items => by simp [shape]
  case empty => exact hscalar _ fun items => by simp [shape]
  case list =>
    intro items ih
    refine h _ fun items' hitems => ?_
    simp only [shape, Shape.all.injEq, reduceCtorEq, or_false] at hitems
    exact hitems ▸ ih
  case all =>
    intro items ih
    refine h _ fun items' hitems => ?_
    simp only [shape, if_true, Shape.all.injEq, reduceCtorEq, or_false] at hitems
    exact hitems ▸ ih
  case any =>
    intro items hne ih
    refine h _ fun items' hitems => ?_
    simp only [shape, hne, if_false, if_true, Shape.any.injEq, reduceCtorEq, false_or] at hitems
    exact hitems ▸ ih
  case other =>
    intro key items hall hany
    exact hscalar _ fun items => by simp [shape, hall, hany]
  case leaf =>
    intro items hempty hsingle
    refine hscalar _ fun items' => ?_
    rw [shape]
    · simp
    · exact hempty
    · exact hsingle
  case scalar =>
    intro rule hnull hlist hempty hsingle hdict
    refine hscalar _ fun items => ?_
    rw [shape]
    · simp
    all_goals assumption
  case anyNil => simp
  case allNil => simp
  case anyCons => exact fun item rest ih ihRest => List.forall_mem_cons.mpr ⟨ih, ihRest⟩
  case allCons => exact fun item rest ih ihRest => List.forall_mem_cons.mpr ⟨ih, ihRest⟩

/-- The first item that is not passed decides: `all` passes true items, `any` false ones. -/
theorem evaluateAll_cases (items : List Json) (values : List (String × Json)) :
    (evaluateAll items values = .ok true ∧ ∀ item ∈ items, evaluate item values = .ok true) ∨
    ∃ before item after, items = before ++ item :: after ∧
      (∀ earlier ∈ before, evaluate earlier values = .ok true) ∧
      evaluate item values ≠ .ok true ∧ evaluateAll items values = evaluate item values := by
  induction items with
  | nil => exact .inl ⟨by rw [evaluateAll], nofun⟩
  | cons item rest ih =>
      cases hitem : evaluate item values with
      | error e =>
          exact .inr ⟨[], item, rest, rfl, nofun, by simp [hitem], by rw [evaluateAll, hitem]; rfl⟩
      | ok met =>
          cases met with
          | false =>
              exact .inr ⟨[], item, rest, rfl, nofun, by simp [hitem],
                by rw [evaluateAll, hitem]; rfl⟩
          | true =>
              have hrest : evaluateAll (item :: rest) values = evaluateAll rest values := by
                rw [evaluateAll, hitem]
                rfl
              rw [hrest]
              rcases ih with ⟨hall, hitems⟩ | ⟨before, found, after, rfl, hbefore, hfound, heq⟩
              · exact .inl ⟨hall, List.forall_mem_cons.mpr ⟨hitem, hitems⟩⟩
              · exact .inr ⟨item :: before, found, after, rfl,
                  List.forall_mem_cons.mpr ⟨hitem, hbefore⟩, hfound, heq⟩

theorem evaluateAny_cases (items : List Json) (values : List (String × Json)) :
    (evaluateAny items values = .ok false ∧ ∀ item ∈ items, evaluate item values = .ok false) ∨
    ∃ before item after, items = before ++ item :: after ∧
      (∀ earlier ∈ before, evaluate earlier values = .ok false) ∧
      evaluate item values ≠ .ok false ∧ evaluateAny items values = evaluate item values := by
  induction items with
  | nil => exact .inl ⟨by rw [evaluateAny], nofun⟩
  | cons item rest ih =>
      cases hitem : evaluate item values with
      | error e =>
          exact .inr ⟨[], item, rest, rfl, nofun, by simp [hitem], by rw [evaluateAny, hitem]; rfl⟩
      | ok met =>
          cases met with
          | true =>
              exact .inr ⟨[], item, rest, rfl, nofun, by simp [hitem],
                by rw [evaluateAny, hitem]; rfl⟩
          | false =>
              have hrest : evaluateAny (item :: rest) values = evaluateAny rest values := by
                rw [evaluateAny, hitem]
                rfl
              rw [hrest]
              rcases ih with ⟨hany, hitems⟩ | ⟨before, found, after, rfl, hbefore, hfound, heq⟩
              · exact .inl ⟨hany, List.forall_mem_cons.mpr ⟨hitem, hitems⟩⟩
              · exact .inr ⟨item :: before, found, after, rfl,
                  List.forall_mem_cons.mpr ⟨hitem, hbefore⟩, hfound, heq⟩

/-- An item that an `all` does not pass ends it. -/
theorem evaluateAll_at {before after : List Json}
    (hbefore : ∀ earlier ∈ before, evaluate earlier values = .ok true)
    (hitem : evaluate item values ≠ .ok true) :
    evaluateAll (before ++ item :: after) values = evaluate item values := by
  induction before with
  | nil =>
      rw [List.nil_append, evaluateAll]
      cases hvalue : evaluate item values with
      | error e => rfl
      | ok met =>
          cases met with
          | true => exact absurd hvalue hitem
          | false => rfl
  | cons earlier before ih =>
      rw [List.forall_mem_cons] at hbefore
      rw [List.cons_append, evaluateAll, hbefore.1]
      exact ih hbefore.2

theorem evaluateAny_at {before after : List Json}
    (hbefore : ∀ earlier ∈ before, evaluate earlier values = .ok false)
    (hitem : evaluate item values ≠ .ok false) :
    evaluateAny (before ++ item :: after) values = evaluate item values := by
  induction before with
  | nil =>
      rw [List.nil_append, evaluateAny]
      cases hvalue : evaluate item values with
      | error e => rfl
      | ok met =>
          cases met with
          | true => rfl
          | false => exact absurd hvalue hitem
  | cons earlier before ih =>
      rw [List.forall_mem_cons] at hbefore
      rw [List.cons_append, evaluateAny, hbefore.1]
      exact ih hbefore.2

/-! ## 3. The meaning -/

theorem Yields.evaluate (h : Yields values rule b) : evaluate rule values = .ok b := by
  induction h with
  | holds h => rw [evaluate_shape, h]
  | leaf h hleaf =>
      rw [evaluate_shape, h]
      exact hleaf
  | @all rule items h _ ih =>
      rw [evaluate_shape, h]
      rcases evaluateAll_cases items values with ⟨hall, -⟩ | ⟨_, item, _, rfl, _, hitem, _⟩
      · exact hall
      · exact absurd (ih item (by simp)) hitem
  | @any rule items h _ ih =>
      rw [evaluate_shape, h]
      rcases evaluateAny_cases items values with ⟨hany, -⟩ | ⟨_, item, _, rfl, _, hitem, _⟩
      · exact hany
      · exact absurd (ih item (by simp)) hitem
  | allFalse h _ _ ihBefore ihItem =>
      rw [evaluate_shape, h]
      exact (evaluateAll_at ihBefore (by simp [ihItem])).trans ihItem
  | anyTrue h _ _ ihBefore ihItem =>
      rw [evaluate_shape, h]
      exact (evaluateAny_at ihBefore (by simp [ihItem])).trans ihItem

/-- **The evaluator returns what the rule means.** -/
theorem yields_iff : Yields values rule b ↔ evaluate rule values = .ok b := by
  refine ⟨Yields.evaluate, fun h => ?_⟩
  induction rule using rule_induction generalizing b with
  | h rule ih =>
      rw [evaluate_shape] at h
      cases hshape : shape rule with
      | holds =>
          rw [hshape] at h
          cases h
          exact .holds hshape
      | refused message =>
          rw [hshape] at h
          cases h
      | leaf leaf =>
          rw [hshape] at h
          exact .leaf hshape h
      | all items =>
          rw [hshape] at h
          have hinside := ih items (.inl hshape)
          rcases evaluateAll_cases items values with
            ⟨hall, hitems⟩ | ⟨before, item, after, rfl, hbefore, hitem, heq⟩
          · cases hall.symm.trans h
            exact .all hshape fun item hmem => hinside item hmem (hitems item hmem)
          · replace h := heq.symm.trans h
            cases b with
            | true => exact absurd h hitem
            | false =>
                exact .allFalse hshape
                  (fun earlier hmem => hinside earlier (by simp [hmem]) (hbefore earlier hmem))
                  (hinside item (by simp) h)
      | any items =>
          rw [hshape] at h
          have hinside := ih items (.inr hshape)
          rcases evaluateAny_cases items values with
            ⟨hany, hitems⟩ | ⟨before, item, after, rfl, hbefore, hitem, heq⟩
          · cases hany.symm.trans h
            exact .any hshape fun item hmem => hinside item hmem (hitems item hmem)
          · replace h := heq.symm.trans h
            cases b with
            | false => exact absurd h hitem
            | true =>
                exact .anyTrue hshape
                  (fun earlier hmem => hinside earlier (by simp [hmem]) (hbefore earlier hmem))
                  (hinside item (by simp) h)

/-! ## 4. The leaves that raise -/

theorem operatorOf_typeError_iff {operator : Json} :
    operatorOf operator = .error .typeError ↔
      (∃ names, operator = .list names) ∨ ∃ names, operator = .dict names := by
  cases operator with
  | str name =>
      simp only [operatorOf, reduceCtorEq, exists_false, or_self, iff_false]
      split <;> simp
  | _ => simp [operatorOf]

theorem operatorOf_contains {operator : Json} :
    operatorOf operator = .ok .contains ↔ operator = .str "contains" := by
  cases operator with
  | str name =>
      simp only [operatorOf, Json.str.injEq]
      constructor
      · intro h
        split at h
        · next op hop =>
            cases h
            unfold operator? at hop
            split at hop
            all_goals first | rfl | cases hop
        · cases h
      · rintro rfl
        rfl
  | _ => simp [operatorOf]

/-- Only `contains` raises, asked for something that is no text in a text. -/
theorem applyOperator_typeError_iff {op : Operator} {actual expected : Json} :
    applyOperator op actual expected = .error .typeError ↔
      op = .contains ∧ (∃ text, actual = .str text) ∧ ∀ part, expected ≠ .str part := by
  cases op with
  | contains =>
      cases actual with
      | str text => cases expected <;> simp [applyOperator, containsOp]
      | _ => simp [applyOperator, containsOp]
  | isIn => cases expected <;> simp [applyOperator]
  | notIn => cases expected <;> simp [applyOperator]
  | startsWith => cases actual <;> cases expected <;> simp [applyOperator]
  | _ => simp [applyOperator]

/-- The checks of a leaf before its operator. -/
theorem leafOn_iff {field : String} :
    LeafOn field leaf ↔
      (!((leaf.map (·.1)).contains "field" && (leaf.map (·.1)).contains "operator") ||
        !((leaf.map (·.1)).all fun key => ["field", "operator", "value"].contains key)) = false ∧
      getD leaf "field" = .str field := by
  simp only [Bool.or_eq_false_iff, Bool.not_eq_false', Bool.and_eq_true, List.contains_iff_mem,
    List.all_eq_true, LeafOn, and_assoc]

theorem evaluateLeaf_on {field : String} (h : LeafOn field leaf) :
    evaluateLeaf leaf values = (operatorOf (getD leaf "operator") >>= fun op =>
      match lookup field values with
      | none => throw (.invalidRule "Rule field is not available to deterministic evaluation.")
      | some actual => applyOperator op actual (getD leaf "value")) := by
  obtain ⟨hpass, hname⟩ := leafOn_iff.mp h
  unfold evaluateLeaf
  dsimp only
  rw [hpass, hname]
  rfl

/-- What is no leaf of the language is refused. -/
theorem evaluateLeaf_off (h : ∀ field, ¬ LeafOn field leaf) :
    ∃ message, evaluateLeaf leaf values = .error (.invalidRule message) := by
  unfold evaluateLeaf
  dsimp only
  split
  · exact ⟨_, rfl⟩
  · next hpass =>
      cases hname : getD leaf "field" with
      | str field => exact absurd (leafOn_iff.mpr ⟨Bool.eq_false_iff.mpr hpass, hname⟩) (h field)
      | _ => exact ⟨_, rfl⟩

theorem evaluateLeaf_typeError_iff :
    evaluateLeaf leaf values = .error .typeError ↔ Mistyped values leaf := by
  constructor
  · intro h
    by_cases hleaf : ∃ field, LeafOn field leaf
    · obtain ⟨field, hleaf⟩ := hleaf
      rw [evaluateLeaf_on hleaf] at h
      rcases bind_eq_error.mp h with h | ⟨op, hop, h⟩
      · rcases operatorOf_typeError_iff.mp h with ⟨names, h⟩ | ⟨names, h⟩
        · exact .operatorList hleaf h
        · exact .operatorDict hleaf h
      · split at h
        · cases h
        · next actual hactual =>
            obtain ⟨rfl, ⟨text, rfl⟩, hexpected⟩ := applyOperator_typeError_iff.mp h
            exact .contains hleaf (operatorOf_contains.mp hop) hactual hexpected
    · obtain ⟨message, hrefused⟩ := evaluateLeaf_off (not_exists.mp hleaf)
      cases hrefused.symm.trans h
  · intro h
    cases h with
    | operatorList h hop =>
        rw [evaluateLeaf_on h, hop]
        rfl
    | operatorDict h hop =>
        rw [evaluateLeaf_on h, hop]
        rfl
    | contains h hop hactual hexpected =>
        rw [evaluateLeaf_on h, operatorOf_contains.mpr hop, hactual]
        exact applyOperator_typeError_iff.mpr ⟨rfl, ⟨_, rfl⟩, hexpected⟩

/-! ## 5. The rules that raise -/

/-- **Evaluation raises a `TypeError` exactly where it comes to a leaf of the wrong
    type.** -/
theorem evaluate_typeError_iff :
    evaluate rule values = .error .typeError ↔ Stumbles values rule := by
  constructor
  · intro h
    induction rule using rule_induction with
    | h rule ih =>
        rw [evaluate_shape] at h
        cases hshape : shape rule with
        | holds =>
            rw [hshape] at h
            cases h
        | refused message =>
            rw [hshape] at h
            cases h
        | leaf leaf =>
            rw [hshape] at h
            exact ⟨leaf, .leaf hshape, evaluateLeaf_typeError_iff.mp h⟩
        | all items =>
            rw [hshape] at h
            rcases evaluateAll_cases items values with
              ⟨hall, -⟩ | ⟨before, item, after, rfl, hbefore, -, heq⟩
            · cases hall.symm.trans h
            · obtain ⟨leaf, hleaf, htype⟩ := ih _ (.inl hshape) item (by simp) (heq.symm.trans h)
              exact ⟨leaf, .all hshape (fun earlier hmem => yields_iff.mpr (hbefore earlier hmem))
                hleaf, htype⟩
        | any items =>
            rw [hshape] at h
            rcases evaluateAny_cases items values with
              ⟨hany, -⟩ | ⟨before, item, after, rfl, hbefore, -, heq⟩
            · cases hany.symm.trans h
            · obtain ⟨leaf, hleaf, htype⟩ := ih _ (.inr hshape) item (by simp) (heq.symm.trans h)
              exact ⟨leaf, .any hshape (fun earlier hmem => yields_iff.mpr (hbefore earlier hmem))
                hleaf, htype⟩
  · rintro ⟨leaf, hreaches, htype⟩
    induction hreaches with
    | leaf h =>
        rw [evaluate_shape, h]
        exact evaluateLeaf_typeError_iff.mpr htype
    | all h hbefore _ ih =>
        rw [evaluate_shape, h]
        exact (evaluateAll_at (fun earlier hmem => (hbefore earlier hmem).evaluate)
          (by simp [ih htype])).trans (ih htype)
    | any h hbefore _ ih =>
        rw [evaluate_shape, h]
        exact (evaluateAny_at (fun earlier hmem => (hbefore earlier hmem).evaluate)
          (by simp [ih htype])).trans (ih htype)

/-- Without such a leaf it returns a truth value or raises `InvalidRule`. -/
theorem evaluate_returns_iff :
    ((∃ b, evaluate rule values = .ok b) ∨
      ∃ message, evaluate rule values = .error (.invalidRule message)) ↔
    ¬ Stumbles values rule := by
  rw [← evaluate_typeError_iff]
  cases evaluate rule values with
  | ok b => simp
  | error e => cases e <;> simp

end Helpdesk.Core
