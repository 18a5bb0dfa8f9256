/-
  File:      Helpdesk/Python/Dict.lean
  Subject:   Python's `dict`, by its items in insertion order.

  * `item?_dictOf_append`: of two values for one key the later one stays;
  * `nodup_dictOf`: every key stands once;
  * `dictOf_self`: pairs with different keys are the items of their dict.
-/
import Mathlib.Data.List.Basic
import Mathlib.Data.List.Induction
import Mathlib.Data.List.Nodup
import Mathlib.Tactic.Common

namespace Helpdesk.Python

variable {κ V : Type} [DecidableEq κ] {items pairs : List (κ × V)} {key k : κ} {value v : V}

/-- `d[key] = value`: a known key keeps its place. -/
def assign : List (κ × V) → κ → V → List (κ × V)
  | [], key, value => [(key, value)]
  | (k, v) :: items, key, value =>
      if k = key then (k, value) :: items else (k, v) :: assign items key value

/-- The dict of a comprehension that yields these pairs. -/
def dictOf (pairs : List (κ × V)) : List (κ × V) := pairs.foldl (fun d p => assign d p.1 p.2) []

/-- `d.get(key)`, `none` where the key is absent. -/
def item? : List (κ × V) → κ → Option V
  | [], _ => none
  | (k, v) :: items, key => if k = key then some v else item? items key

theorem item?_assign : ∀ items : List (κ × V),
    item? (assign items k v) key = if k = key then some v else item? items key
  | [] => rfl
  | (k', v') :: items => by
      by_cases hk : k' = k
      · subst hk
        by_cases hkey : k' = key <;> simp [assign, item?, hkey]
      · have ih := item?_assign items
        by_cases hkey : k' = key
        · subst hkey
          simp [assign, item?, hk, Ne.symm hk]
        · simp [assign, item?, hk, hkey, ih]

theorem mem_keys_assign : ∀ items : List (κ × V),
    key ∈ (assign items k v).map Prod.fst ↔ key = k ∨ key ∈ items.map Prod.fst
  | [] => by simp [assign]
  | (k', v') :: items => by
      by_cases hk : k' = k
      · subst hk
        simp [assign]
      · have ih := mem_keys_assign items
        rw [assign, if_neg hk, List.map_cons, List.map_cons, List.mem_cons, List.mem_cons, ih]
        exact or_left_comm

theorem nodup_assign : ∀ {items : List (κ × V)}, (items.map Prod.fst).Nodup →
    ((assign items k v).map Prod.fst).Nodup
  | [], _ => List.nodup_singleton _
  | (k', v') :: items, h => by
      rw [List.map_cons, List.nodup_cons] at h
      by_cases hk : k' = k
      · rw [assign, if_pos hk, List.map_cons, List.nodup_cons]
        exact h
      · rw [assign, if_neg hk, List.map_cons, List.nodup_cons, mem_keys_assign]
        exact ⟨fun hin => hin.elim hk h.1, nodup_assign h.2⟩

/-- **Every key stands once.** -/
theorem nodup_dictOf : ∀ pairs : List (κ × V), ((dictOf pairs).map Prod.fst).Nodup := by
  intro pairs
  induction pairs using List.reverseRecOn with
  | nil => exact List.nodup_nil
  | append_singleton pairs p ih =>
      rw [dictOf, List.foldl_append]
      exact nodup_assign ih

/-- A new key stands last. -/
theorem assign_of_fresh : ∀ {items : List (κ × V)}, key ∉ items.map Prod.fst →
    assign items key value = items ++ [(key, value)]
  | [], _ => rfl
  | (k, v) :: items, h => by
      rw [List.map_cons, List.mem_cons, not_or] at h
      rw [assign, if_neg (Ne.symm h.1), assign_of_fresh h.2]
      rfl

theorem dictOf_concat (p : κ × V) : dictOf (pairs ++ [p]) = assign (dictOf pairs) p.1 p.2 := by
  rw [dictOf, List.foldl_append]
  rfl

/-- **Of two values for one key the later one stays.** -/
theorem item?_dictOf_append {front back : List (κ × V)} :
    item? (dictOf (front ++ back)) key =
      (item? (dictOf back) key).or (item? (dictOf front) key) := by
  induction back using List.reverseRecOn with
  | nil =>
      rw [List.append_nil]
      rfl
  | append_singleton back p ih =>
      rw [← List.append_assoc, dictOf_concat, dictOf_concat, item?_assign, item?_assign, ih]
      by_cases hkey : p.1 = key <;> simp [hkey]

theorem mem_keys_dictOf : key ∈ (dictOf pairs).map Prod.fst ↔ key ∈ pairs.map Prod.fst := by
  induction pairs using List.reverseRecOn with
  | nil => rfl
  | append_singleton pairs p ih =>
      rw [dictOf_concat, mem_keys_assign, ih, List.map_append, List.mem_append]
      simp [or_comm]

theorem item?_eq_none : ∀ {items : List (κ × V)},
    item? items key = none ↔ key ∉ items.map Prod.fst
  | [] => by simp [item?]
  | (k, v) :: items => by
      by_cases hk : k = key
      · simp [item?, hk]
      · rw [item?, if_neg hk, item?_eq_none, List.map_cons, List.mem_cons, not_or]
        exact ⟨fun h => ⟨fun he => hk he.symm, h⟩, fun h => h.2⟩

theorem mem_of_item? : ∀ {items : List (κ × V)}, item? items key = some value → (key, value) ∈ items
  | (k, v) :: items, h => by
      by_cases hk : k = key
      · subst hk
        rw [item?, if_pos rfl] at h
        rw [Option.some.inj h]
        exact List.mem_cons_self
      · rw [item?, if_neg hk] at h
        exact List.mem_cons_of_mem _ (mem_of_item? h)

/-- What a dict holds, in terms of its lookups. -/
theorem mem_iff_item? : ∀ {items : List (κ × V)}, (items.map Prod.fst).Nodup →
    ((key, value) ∈ items ↔ item? items key = some value)
  | [], _ => by simp [item?]
  | (k, v) :: items, h => by
      rw [List.map_cons, List.nodup_cons] at h
      by_cases hk : k = key
      · subst hk
        have hout : (k, value) ∉ items := fun hin => h.1 (List.mem_map.mpr ⟨_, hin, rfl⟩)
        rw [item?, if_pos rfl, List.mem_cons, Prod.mk.injEq]
        constructor
        · rintro (⟨-, rfl⟩ | hin)
          · rfl
          · exact absurd hin hout
        · rintro he
          exact .inl ⟨rfl, (Option.some.inj he).symm⟩
      · have ih := mem_iff_item? h.2
        rw [item?, if_neg hk, ← ih, List.mem_cons, Prod.mk.injEq]
        exact ⟨fun hin => hin.resolve_left fun he => hk he.1.symm, .inr⟩

/-- What a dict comprehension holds comes from its pairs. -/
theorem mem_of_item?_dictOf (h : item? (dictOf pairs) key = some value) : (key, value) ∈ pairs := by
  induction pairs using List.reverseRecOn with
  | nil => cases h
  | append_singleton front p ih =>
      rw [dictOf_concat, item?_assign] at h
      split_ifs at h with hkey
      · rw [← hkey, ← Option.some.inj h]
        exact List.mem_append_right _ (List.mem_singleton_self _)
      · exact List.mem_append_left _ (ih h)

theorem dictOf_self (h : (pairs.map Prod.fst).Nodup) : dictOf pairs = pairs := by
  induction pairs using List.reverseRecOn with
  | nil => rfl
  | append_singleton front p ih =>
      rw [List.map_append, List.nodup_append] at h
      have hfresh : p.1 ∉ front.map Prod.fst := fun hmem => h.2.2 p.1 hmem p.1 (by simp) rfl
      rw [dictOf_concat, ih h.1, assign_of_fresh hfresh]

end Helpdesk.Python
