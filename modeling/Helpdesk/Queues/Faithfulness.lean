/-
  File:      Helpdesk/Queues/Faithfulness.lean
  Subject:   Which queue filters compile, and what their text shows of them.

  * `supported`, `reachesUnhashable`: the filters that compile, and those on which the
    compiler meets a field name that is a list or an object before anything else is
    wrong (`_FIELDS.get` raises a `TypeError` there);
  * `decided_filter`: the compiler's three outcomes;
  * `compile_withoutValues`: the text of a condition is that of the filter with the
    bound values taken out;
  * **`filter_compiles_faithfully`**: the compiler raises `QueueConfigurationError` or
    compiles faithfully, exactly when it meets no such field name.
-/
import Helpdesk.Queues.FilterLaws

namespace Helpdesk.Queues

open Helpdesk.Python Helpdesk.Conditions

/-! ## 1. Refusals -/

/-- A list and a dict are no keys of a dict. -/
def isUnhashable : Json → Bool
  | .list _ => true
  | .dict _ => true
  | _ => false

def leafUnhashable (items : List (String × Json)) : Bool :=
  (Json.lookup "operator" items).isSome && (Json.lookup "field" items).any isUnhashable

def valueSupported (operator value : Json) : Bool :=
  match operator, value with
  | .str "equals", value => (scalar? value).isSome
  | .str "in", .list items => (strings? items).any fun expected =>
      expected ≠ [] ∧ expected.length ≤ 50
  | _, _ => false

def operatorSupported (field : Field) (operator value : Json) : Bool :=
  match operator, value, field with
  | .str "is_null", _, _ => true
  | .str "is_not_null", _, _ => true
  | .str "equals_context", .str "user_id", .assigneeUserId => true
  | .str "in_context", .str "support_group_ids", .assignmentGroupId => true
  | operator, value, _ => valueSupported operator value

def leafSupported (items : List (String × Json)) : Bool :=
  match Json.lookup "field" items, Json.lookup "operator" items with
  | some (.str name), some operator =>
      (field? name).any fun field => operatorSupported field operator (Json.getD items "value")
  | _, _ => false

/-- A group of 1 to 20 children. -/
def isFullGroup (key : String) (children : List Json) : Bool :=
  (connective? key).isSome && decide (children ≠ [] ∧ children.length ≤ 20)

mutual

/-- The filters that compile. -/
def supported (value : Json) (depth : Nat) : Bool :=
  decide (depth ≤ 5) && match value with
  | .null => true
  | .list [] => true
  | .dict [] => true
  | .dict [(key, .list children)] => isFullGroup key children && supportedAll children (depth + 1)
  | .dict items => leafSupported items
  | _ => false

def supportedAll (children : List Json) (depth : Nat) : Bool :=
  match children with
  | [] => true
  | child :: rest => supported child depth && supportedAll rest depth

end

mutual

/-- **A leaf whose field name is a list or an object is met**, from left to right,
    before anything else is refused. -/
def reachesUnhashable (value : Json) (depth : Nat) : Bool :=
  decide (depth ≤ 5) && match value with
  | .dict [(key, .list children)] => isFullGroup key children && anyUnhashable children (depth + 1)
  | .dict items => leafUnhashable items
  | _ => false

def anyUnhashable (children : List Json) (depth : Nat) : Bool :=
  match children with
  | [] => false
  | child :: rest => reachesUnhashable child depth || supported child depth && anyUnhashable rest depth

end

/-- When a run of the compiler succeeds, and when it raises a `TypeError`. -/
structure Decided {α : Type} (result : Compiled α) (ok unhashable : Bool) : Prop where
  ok : (∃ a, result = .ok a) ↔ ok = true
  typeError : result = .error .typeError ↔ unhashable = true

theorem decided_ok {α : Type} (a : α) : Decided (.ok a : Compiled α) true false where
  ok := by simp
  typeError := by simp

theorem decided_configuration {α : Type} (message : String) :
    Decided (.error (.configuration message) : Compiled α) false false where
  ok := by simp
  typeError := by simp

theorem decided_typeError {α : Type} : Decided (.error .typeError : Compiled α) false true where
  ok := by simp
  typeError := by simp

theorem decided_value (field : Field) (operator value : Json) (parameters : Parameters) :
    Decided (compileValue field operator value parameters) (valueSupported operator value) false := by
  unfold compileValue
  split
  · next value =>
      rw [valueSupported]
      split
      · next hscalar =>
          rw [hscalar]
          exact decided_ok _
      · next hscalar =>
          rw [hscalar]
          exact decided_configuration _
  · next items =>
      rw [valueSupported]
      split
      · next expected hstrings =>
          rw [hstrings, Option.any_some]
          by_cases hlength : expected = [] ∨ 50 < expected.length
          · have hnot : ¬(expected ≠ [] ∧ expected.length ≤ 50) := by
              rintro ⟨hne, hle⟩
              rcases hlength with hnil | hlt
              · exact hne hnil
              · omega
            rw [if_pos hlength, decide_eq_false hnot]
            exact decided_configuration _
          · rw [not_or, Nat.not_lt] at hlength
            rw [if_neg (by simpa using hlength), decide_eq_true hlength]
            exact decided_ok _
      · next hstrings =>
          rw [hstrings]
          exact decided_configuration _
  · next hequals hin =>
      have hfalse : valueSupported operator value = false := by
        unfold valueSupported
        split
        · exact (hequals rfl).elim
        · exact (hin _ rfl rfl).elim
        · rfl
      rw [hfalse]
      exact decided_configuration _

theorem decided_operator (field : Field) (operator value : Json) (parameters : Parameters) :
    Decided (compileOperator field operator value parameters)
      (operatorSupported field operator value) false := by
  unfold compileOperator
  split
  · exact decided_ok _
  · exact decided_ok _
  · exact decided_ok _
  · exact decided_ok _
  · next hnull hnotNull hcurrentUser hsupportGroups =>
      have hvalue : operatorSupported field operator value = valueSupported operator value := by
        unfold operatorSupported
        split
        · exact (hnull rfl).elim
        · exact (hnotNull rfl).elim
        · exact (hcurrentUser rfl rfl rfl).elim
        · exact (hsupportGroups rfl rfl rfl).elim
        · rfl
      rw [hvalue]
      exact decided_value field operator value parameters

theorem decided_leaf (items : List (String × Json)) (parameters : Parameters) :
    Decided (compileLeaf items parameters) (leafSupported items) (leafUnhashable items) := by
  unfold compileLeaf leafSupported leafUnhashable
  cases hfield : Json.lookup "field" items with
  | none => simpa using decided_configuration _
  | some fieldName =>
      cases hoperator : Json.lookup "operator" items with
      | none => simpa using decided_configuration _
      | some operator =>
          cases fieldName with
          | list children => exact decided_typeError
          | dict children => exact decided_typeError
          | str name =>
              cases hname : field? name with
              | none => simpa [fieldOf, isUnhashable, hname] using decided_configuration _
              | some field =>
                  simpa [fieldOf, isUnhashable, hname] using
                    decided_operator field operator (Json.getD items "value") parameters
          | null => exact decided_configuration _
          | bool b => exact decided_configuration _
          | int n => exact decided_configuration _
          | float x => exact decided_configuration _

theorem Decided.bind_pure {α β : Type} {result : Compiled α} {ok unhashable : Bool} {f : α → β}
    (h : Decided result ok unhashable) :
    Decided (do let a ← result; return f a) ok unhashable where
  ok := by
    rw [← h.ok]
    cases result <;> simp [bind, Except.bind, pure, Except.pure]
  typeError := by
    rw [← h.typeError]
    cases result <;> simp [bind, Except.bind, pure, Except.pure]

/-- A run after another. -/
theorem Decided.bind {α β : Type} {result : Compiled α} {f : α → Compiled β}
    {ok ok' unhashable unhashable' : Bool} (h : Decided result ok unhashable)
    (hf : ∀ a, Decided (f a) ok' unhashable') :
    Decided (result >>= f) (ok && ok') (unhashable || ok && unhashable') := by
  cases hresult : result with
  | ok a =>
      have hok : ok = true := h.ok.mp ⟨a, hresult⟩
      have hno : unhashable = false := by
        rw [← Bool.not_eq_true, ← h.typeError, hresult]
        simp
      subst hok hno
      exact hf a
  | error e =>
      have hok : ok = false := by
        rw [← Bool.not_eq_true, ← h.ok, hresult]
        simp
      subst hok
      have herror := h.typeError
      rw [hresult] at herror
      refine ⟨by simp [Bind.bind, Except.bind], ?_⟩
      simpa [Bind.bind, Except.bind] using herror

/-- A group of no child, of more than 20, or of something else. -/
theorem isFullGroup_eq {key : String} {c : Connective} (hkey : connective? key = some c)
    (children : List Json) :
    isFullGroup key children = !decide (children = [] ∨ 20 < children.length) := by
  unfold isFullGroup
  rw [hkey, Option.isSome_some, Bool.true_and, ← decide_not]
  congr 1
  rw [not_or, Nat.not_lt]

/-- A group has no leaf's names. -/
theorem leaf_of_one (key : String) (value : Json) :
    leafSupported [(key, value)] = false ∧ leafUnhashable [(key, value)] = false := by
  by_cases hkey : key = "field"
  · subst hkey
    cases value <;> simp [leafSupported, leafUnhashable, Json.lookup]
  · simp [leafSupported, leafUnhashable, Json.lookup, hkey]

mutual

theorem decided_filter (value : Json) (parameters : Parameters) (depth : Nat) :
    Decided (compileFilter value parameters depth) (supported value depth)
      (reachesUnhashable value depth) := by
  rw [compileFilter.eq_def]
  by_cases hdepth : 5 < depth
  · have hshallow : decide (depth ≤ 5) = false := decide_eq_false (by omega)
    rw [if_pos hdepth, supported.eq_def, reachesUnhashable.eq_def, hshallow, Bool.false_and,
      Bool.false_and]
    exact decided_configuration _
  · have hshallow : decide (depth ≤ 5) = true := decide_eq_true (by omega)
    rw [if_neg hdepth]
    split
    · rw [supported, reachesUnhashable, hshallow]
      · exact decided_ok _
      all_goals simp
    · rw [supported, reachesUnhashable, hshallow]
      · exact decided_ok _
      all_goals simp
    · rw [supported, reachesUnhashable, hshallow]
      · exact decided_ok _
      all_goals simp
    · next key children =>
        rw [supported, reachesUnhashable, hshallow, Bool.true_and, Bool.true_and]
        split
        · next connective hkey =>
            by_cases hchildren : children = [] ∨ 20 < children.length
            · rw [if_pos hchildren, isFullGroup_eq hkey, decide_eq_true hchildren]
              exact decided_configuration _
            · rw [if_neg hchildren, isFullGroup_eq hkey, decide_eq_false hchildren]
              exact (decided_children children parameters (depth + 1)).bind_pure
        · next hkey =>
            have hnone : isFullGroup key children = false := by simp [isFullGroup, hkey]
            rw [hnone]
            have hleaf := decided_leaf [(key, .list children)] parameters
            rwa [(leaf_of_one key _).1, (leaf_of_one key _).2] at hleaf
    · next items hempty hgroup =>
        rw [supported, reachesUnhashable, hshallow, Bool.true_and, Bool.true_and]
        · split
          · next hone =>
              obtain ⟨key, value, rfl⟩ : ∃ key value, items = [(key, value)] := by
                unfold isGroup at hone
                split at hone
                · exact ⟨_, _, rfl⟩
                · cases hone
              rw [(leaf_of_one key value).1, (leaf_of_one key value).2]
              exact decided_configuration _
          · exact decided_leaf items parameters
        all_goals assumption
    · next hnull hnil hempty hgroup hdict =>
        rw [supported, reachesUnhashable]
        · simpa using decided_configuration _
        all_goals assumption

theorem decided_children (children : List Json) (parameters : Parameters) (depth : Nat) :
    Decided (compileChildren children parameters depth) (supportedAll children depth)
      (anyUnhashable children depth) := by
  cases children with
  | nil =>
      rw [compileChildren, supportedAll, anyUnhashable]
      exact decided_ok _
  | cons child rest =>
      rw [compileChildren, supportedAll, anyUnhashable]
      exact (decided_filter child parameters depth).bind fun _ =>
        (decided_children rest _ depth).bind_pure

end

/-! ## 2. Values -/

/-- A value that a leaf binds, taken out. -/
def withoutValue (operator value : Json) : Json :=
  match operator, value with
  | .str "equals", value => if (scalar? value).isSome then .str "" else value
  | .str "in", .list _ => .list [.str ""]
  | _, value => value

def leafWithoutValue (items : List (String × Json)) : List (String × Json) :=
  items.map fun p => (p.1, if p.1 = "value" then withoutValue (Json.getD items "operator") p.2 else p.2)

mutual

/-- **The filter with the bound values taken out.** -/
def withoutValues (filter : Json) : Json :=
  match filter with
  | .dict [(key, .list children)] => .dict [(key, .list (childrenWithoutValues children))]
  | .dict items => .dict (leafWithoutValue items)
  | filter => filter

def childrenWithoutValues (children : List Json) : List Json :=
  match children with
  | [] => []
  | child :: rest => withoutValues child :: childrenWithoutValues rest

end

theorem lookup_map {f : String → Json → Json} (key : String) (items : List (String × Json)) :
    Json.lookup key (items.map fun p => (p.1, f p.1 p.2)) = (Json.lookup key items).map (f key) := by
  induction items with
  | nil => rfl
  | cons item items ih =>
      by_cases hkey : item.1 = key
      · simp [Json.lookup, hkey]
      · simp [Json.lookup, hkey, ih]

section Values

/-- Two dicts with the same keys in the same order. -/
def SameKeys (p q : Parameters) : Prop := p.map Prod.fst = q.map Prod.fst

variable {p q p' : Parameters} {sql : Sql}

theorem SameKeys.nextIndex (h : SameKeys p q) : nextIndex p = nextIndex q := by
  have hkeys : ∀ p : Parameters, Queues.nextIndex p = (p.map Prod.fst).countP isGenerated := by
    intro p
    rw [List.countP_map]
    rfl
  rw [hkeys, hkeys, h]

theorem SameKeys.assign (key : String) (b b' : Bind) :
    ∀ {p q : Parameters}, SameKeys p q → SameKeys (assign p key b) (assign q key b')
  | [], [], _ => rfl
  | (k, v) :: p, (k', v') :: q, h => by
      obtain ⟨rfl, hrest⟩ := List.cons.inj h
      unfold Python.assign
      split
      · exact congrArg (k :: ·) hrest
      · exact congrArg (k :: ·) (SameKeys.assign key b b' (p := p) (q := q) hrest)

theorem SameKeys.bound (h : SameKeys p q) {atom : Nat → Atom} {b : Bind}
    (hbound : bound atom b p = (sql, p')) (b' : Bind) :
    ∃ q', bound atom b' q = (sql, q') ∧ SameKeys p' q' := by
  obtain ⟨rfl, rfl⟩ := Prod.mk.inj hbound
  refine ⟨_, Prod.ext ?_ rfl, ?_⟩
  · show [Token.atom (atom (Queues.nextIndex q))] = _
    rw [h.nextIndex]
  · rw [h.nextIndex]
    exact h.assign _ b b'

theorem withoutValue_operator {field : Field} {operator v : Json} (hkeys : SameKeys p q)
    (h : compileOperator field operator v p = .ok (sql, p')) :
    ∃ q', compileOperator field operator (withoutValue operator v) q = .ok (sql, q') ∧
      SameKeys p' q' := by
  unfold compileOperator at h
  split at h
  · obtain ⟨rfl, rfl⟩ := Prod.mk.inj (Except.ok.inj h)
    exact ⟨q, by simp [compileOperator], hkeys⟩
  · obtain ⟨rfl, rfl⟩ := Prod.mk.inj (Except.ok.inj h)
    exact ⟨q, by simp [compileOperator], hkeys⟩
  · obtain ⟨rfl, rfl⟩ := Prod.mk.inj (Except.ok.inj h)
    exact ⟨q, by simp [compileOperator, withoutValue], hkeys⟩
  · obtain ⟨rfl, rfl⟩ := Prod.mk.inj (Except.ok.inj h)
    exact ⟨q, by simp [compileOperator, withoutValue], hkeys⟩
  · unfold compileValue at h
    split at h
    · next value =>
        split at h
        · next b hscalar =>
            obtain ⟨q', hq', hdict⟩ := hkeys.bound (Except.ok.inj h) (.text "")
            refine ⟨q', ?_, hdict⟩
            rw [withoutValue, hscalar, Option.isSome_some, if_pos rfl]
            exact congrArg Except.ok hq'
        · cases h
    · next items =>
        split at h
        · next expected hstrings =>
            split at h
            · cases h
            · obtain ⟨q', hq', hdict⟩ := hkeys.bound (Except.ok.inj h) (.texts [""])
              refine ⟨q', ?_, hdict⟩
              rw [withoutValue]
              exact congrArg Except.ok hq'
        · cases h
    · cases h

theorem lookup_leafWithoutValue {key : String} (items : List (String × Json)) (hkey : key ≠ "value") :
    Json.lookup key (leafWithoutValue items) = Json.lookup key items := by
  unfold leafWithoutValue
  rw [lookup_map (f := fun key value =>
    if key = "value" then withoutValue (Json.getD items "operator") value else value)]
  simp [hkey]

theorem withoutValue_null (operator : Json) : withoutValue operator .null = .null := by
  unfold withoutValue
  split
  · rfl
  · simp_all
  · rfl

theorem getD_leafWithoutValue {items : List (String × Json)} {operator : Json}
    (hoperator : Json.lookup "operator" items = some operator) :
    Json.getD (leafWithoutValue items) "value" = withoutValue operator (Json.getD items "value") := by
  unfold leafWithoutValue Json.getD
  rw [lookup_map (f := fun key value => if key = "value" then
    withoutValue ((Json.lookup "operator" items).getD .null) value else value), hoperator]
  cases hvalue : Json.lookup "value" items with
  | none => simp [withoutValue_null]
  | some value => simp

theorem withoutValue_leaf {items : List (String × Json)} (hkeys : SameKeys p q)
    (h : compileLeaf items p = .ok (sql, p')) :
    ∃ q', compileLeaf (leafWithoutValue items) q = .ok (sql, q') ∧ SameKeys p' q' := by
  unfold compileLeaf at h ⊢
  rw [lookup_leafWithoutValue items (by decide), lookup_leafWithoutValue items (by decide)]
  split at h
  · next fieldName operator hfield hoperator =>
      split at h
      · cases h
      · cases h
      · next field hname =>
          simp only [getD_leafWithoutValue hoperator]
          exact withoutValue_operator hkeys h
  · cases h

/-- A leaf that compiles has two keys, so it is no group. -/
theorem compileFilter_leaf {items : List (String × Json)} {depth : Nat} (hdepth : ¬5 < depth)
    (h : compileLeaf items p = .ok (sql, p')) :
    compileFilter (.dict items) p depth = .ok (sql, p') := by
  have hsupported : leafSupported items = true := (decided_leaf items p).ok.mp ⟨_, h⟩
  match items, h, hsupported with
  | [], _, hsupported => cases hsupported
  | [(key, value)], _, hsupported =>
      rw [(leaf_of_one key value).1] at hsupported
      cases hsupported
  | first :: second :: rest, h, _ =>
      rw [compileFilter, if_neg hdepth]
      · exact h
      all_goals simp

theorem length_childrenWithoutValues (children : List Json) :
    (childrenWithoutValues children).length = children.length := by
  induction children with
  | nil => rw [childrenWithoutValues]
  | cons child rest ih => rw [childrenWithoutValues, List.length_cons, ih, List.length_cons]

mutual

/-- **The text of a condition does not depend on the values in the filter.** -/
theorem compile_withoutValues (value : Json) (depth : Nat) {p q p' : Parameters} {sql : Sql}
    (hkeys : SameKeys p q) (h : compileFilter value p depth = .ok (sql, p')) :
    ∃ q', compileFilter (withoutValues value) q depth = .ok (sql, q') ∧ SameKeys p' q' := by
  rw [compileFilter.eq_def] at h
  split at h
  · cases h
  · next hdepth =>
      have hempty : ∀ {value : Json}, withoutValues value = value →
          (∀ p : Parameters, compileFilter value p depth = .ok ([.atom .true], p)) →
          (.ok ([.atom .true], p) : Compiled (Sql × Parameters)) = .ok (sql, p') →
          ∃ q', compileFilter (withoutValues value) q depth = .ok (sql, q') ∧ SameKeys p' q' := by
        intro value hvalue hcompile hok
        obtain ⟨rfl, rfl⟩ := Prod.mk.inj (Except.ok.inj hok)
        exact ⟨q, by rw [hvalue, hcompile], hkeys⟩
      split at h
      · exact hempty (by simp [withoutValues]) (fun p => by rw [compileFilter, if_neg hdepth]) h
      · exact hempty (by simp [withoutValues]) (fun p => by rw [compileFilter, if_neg hdepth]) h
      · exact hempty (by simp [withoutValues, leafWithoutValue])
          (fun p => by rw [compileFilter, if_neg hdepth]) h
      · next key children =>
          rw [withoutValues]
          split at h
          · next connective hkey =>
              split at h
              · cases h
              · next hchildren =>
                  obtain ⟨⟨parts, p₁⟩, hparts, h⟩ := Helpdesk.bind_eq_ok.mp h
                  obtain ⟨rfl, rfl⟩ := Prod.mk.inj (Except.ok.inj h)
                  obtain ⟨q₁, hq₁, hkeys₁⟩ := children_withoutValues children (depth + 1) hkeys hparts
                  refine ⟨q₁, ?_, hkeys₁⟩
                  have hlength := length_childrenWithoutValues children
                  have hfull : ¬(childrenWithoutValues children = [] ∨
                      20 < (childrenWithoutValues children).length) := by
                    rw [← List.length_eq_zero_iff, hlength, List.length_eq_zero_iff]
                    exact hchildren
                  rw [compileFilter, if_neg hdepth]
                  simp only [hkey, if_neg hfull, hq₁]
                  rfl
          · exfalso
            have hleaf := (decided_leaf [(key, .list children)] p).ok.mp ⟨_, h⟩
            rw [(leaf_of_one key _).1] at hleaf
            cases hleaf
      · next items hnil hgroup =>
          split at h
          · cases h
          · next hone =>
              obtain ⟨q', hq', hkeys'⟩ := withoutValue_leaf hkeys h
              refine ⟨q', ?_, hkeys'⟩
              rw [withoutValues]
              · exact compileFilter_leaf hdepth hq'
              all_goals assumption
      · cases h

theorem children_withoutValues (children : List Json) (depth : Nat) {p q p' : Parameters}
    {parts : List Sql} (hkeys : SameKeys p q)
    (h : compileChildren children p depth = .ok (parts, p')) :
    ∃ q', compileChildren (childrenWithoutValues children) q depth = .ok (parts, q') ∧
      SameKeys p' q' := by
  cases children with
  | nil =>
      rw [compileChildren] at h
      obtain ⟨rfl, rfl⟩ := Prod.mk.inj (Except.ok.inj h)
      exact ⟨q, by rw [childrenWithoutValues, compileChildren], hkeys⟩
  | cons child rest =>
      rw [compileChildren] at h
      obtain ⟨⟨sql, p₁⟩, hchild, h⟩ := Helpdesk.bind_eq_ok.mp h
      obtain ⟨⟨parts', p₂⟩, hrest, h⟩ := Helpdesk.bind_eq_ok.mp h
      obtain ⟨rfl, rfl⟩ := Prod.mk.inj (Except.ok.inj h)
      obtain ⟨q₁, hq₁, hkeys₁⟩ := compile_withoutValues child depth hkeys hchild
      obtain ⟨q₂, hq₂, hkeys₂⟩ := children_withoutValues rest depth hkeys₁ hrest
      refine ⟨q₂, ?_, hkeys₂⟩
      rw [childrenWithoutValues, compileChildren, hq₁]
      show (do
        let (parts, parameters) ← compileChildren (childrenWithoutValues rest) q₁ depth
        return (sql :: parts, parameters) : Compiled (List Sql × Parameters)) = _
      rw [hq₂]
      rfl

end

end Values

/-! ## 3. Faithful compilation -/

/-- The statement's parameters: who looks, and the dict. -/
structure Executes (binds : Binds) (context : QueueContext) (parameters : Parameters) : Prop where
  user : binds "current_user_id" = some (.uuid context.userId)
  groups : binds "support_group_ids" = some (.uuids context.supportGroupIds)
  parameters : ∀ p ∈ parameters, binds p.1 = some p.2

theorem Executes.supplies {binds : Binds} {context : QueueContext} {base : Parameters}
    {generated : List Bind} (h : Executes binds context (base ++ numbered generated)) :
    Supplies binds context generated where
  user := h.user
  groups := h.groups
  generated _ _ hi := h.parameters _ (List.mem_append_right _ (mem_numbered_of_getElem? hi))

/-- **A compilation is faithful**: it raises `QueueConfigurationError`; or it adds
    parameters with fresh names, each named by the condition once, the condition is
    true on the tickets on which the filter holds and on no others, and it is that of
    the filter without its values. -/
def Faithful (value : Json) (parameters : Parameters) : Prop :=
  match compileFilter value parameters 0 with
  | .error (.configuration _) => True
  | .error .typeError => False
  | .ok (sql, parameters') =>
      (∃ generated, parameters' = parameters ++ numbered generated ∧
        indices sql = List.range generated.length) ∧
      (parameters'.map Prod.fst).Nodup ∧
      (∀ row context binds, Executes binds context parameters' →
        (evaluate (atomTruth row binds) sql = some (some true) ↔ holds row context value = true)) ∧
      ∃ parameters'', compileFilter (withoutValues value) parameters 0 = .ok (sql, parameters'')

/-- **Filters compile faithfully**, but for a field name that is no key of a dict. -/
theorem filter_compiles_faithfully (value : Json) {parameters : Parameters}
    (hbase : Ungenerated parameters) (hkeys : (parameters.map Prod.fst).Nodup) :
    Faithful value parameters ↔ reachesUnhashable value 0 = false := by
  have hdecided := decided_filter value parameters 0
  unfold Faithful
  split
  · next message herror =>
      rw [herror] at hdecided
      have hno : reachesUnhashable value 0 = false := by
        rw [← Bool.not_eq_true, ← hdecided.typeError]
        simp
      simp [hno]
  · next herror =>
      have hreaches := hdecided.typeError.mp herror
      simp [hreaches]
  · next sql parameters' hok =>
      have hno : reachesUnhashable value 0 = false := by
        rw [← Bool.not_eq_true, ← hdecided.typeError, hok]
        simp
      refine ⟨fun _ => hno, fun _ => ?_⟩
      have hnumbered : parameters ++ numbered [] = parameters := List.append_nil _
      have hcompiled := hok
      rw [← hnumbered] at hcompiled
      obtain ⟨more, hmore, hsound⟩ := compile_sound hbase value [] 0 hcompiled
      rw [List.nil_append] at hmore
      subst hmore
      obtain ⟨parameters'', hwithout, -⟩ :=
        compile_withoutValues value 0 (q := parameters) (p := parameters) rfl hok
      refine ⟨⟨more, rfl, ?_⟩, numbered_nodup hbase hkeys more, ?_, parameters'', hwithout⟩
      · rw [hsound.indices, List.range_eq_range']
        rfl
      · intro row context binds hbinds
        obtain ⟨t, hdenotes, ht⟩ := hsound.truth row context binds hbinds.supplies
        rw [hdenotes.evaluate, Option.some_inj]
        exact ht

/-- Open tickets of two priorities, or tickets that are nobody's. -/
def urgentOrUnassigned : Json :=
  .dict [("any", .list [
    .dict [("all", .list [
      .dict [("field", .str "status_code"), ("operator", .str "equals"), ("value", .str "OPEN")],
      .dict [("field", .str "priority_code"), ("operator", .str "in"),
        ("value", .list [.str "P1", .str "P2"])]])],
    .dict [("field", .str "assignee_user_id"), ("operator", .str "is_null")]])]

theorem filter_compiles_faithfully_nested :
    Ungenerated [("current_user_id", .uuid (3 : Uuid))] ∧
      Faithful urgentOrUnassigned [("current_user_id", .uuid (3 : Uuid))] :=
  have hbase : Ungenerated [("current_user_id", .uuid (3 : Uuid))] := by
    intro p hp
    obtain rfl := List.mem_singleton.mp hp
    decide
  ⟨hbase, (filter_compiles_faithfully urgentOrUnassigned hbase (by decide)).mpr (by decide)⟩

/-- A field name that is a list is looked up in `_FIELDS`. -/
theorem unhashable_field_raises :
    ¬ ∀ (value : Json) (parameters : Parameters), Ungenerated parameters →
      (parameters.map Prod.fst).Nodup → Faithful value parameters := by
  intro hall
  have hfaithful := hall (.dict [("field", .list []), ("operator", .str "equals")]) []
    (fun _ hp => nomatch hp) List.nodup_nil
  have herror : compileFilter (.dict [("field", .list []), ("operator", .str "equals")]) [] 0 =
      .error .typeError := by decide
  rw [Faithful, herror] at hfaithful
  exact hfaithful

end Helpdesk.Queues
