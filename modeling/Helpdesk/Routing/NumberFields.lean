/-
  File:      Helpdesk/Routing/NumberFields.lean
  Subject:   Ordering comparisons of the routing rules over NUMBER fields.

  A stored decimal reaches the rules as a text (`_json_value`); a text and a number have
  no order, and the `TypeError` of their comparison counts as false.

  * `lookup_routingValues`: a rule reads a custom field under `field.<code>`;
  * `number_never_compares`: every ordering comparison of a NUMBER field is false;
  * **`compared_iff`**: so it is right exactly where the numbers do not compare;
  * `ten_not_greater_than_five`: where they do.
-/
import Helpdesk.Tickets.CustomValues

namespace Helpdesk.Routing

open Helpdesk.Python Helpdesk.Core Helpdesk.Tickets Json

variable {items : List (String × Json)} {key name code : String} {value w : Json}
  {ticket : RoutingTicket}

/-! ## 1. The values of a ticket -/

theorem fieldName_injective {code code' : String} (h : fieldName code = fieldName code') :
    code = code' := by
  have hchars := congrArg String.toList h
  simp only [fieldName, String.toList_append] at hchars
  exact String.toList_injective (List.append_cancel_left hchars)

theorem keys_setItem : (setItem key value items).map (·.1) =
    if key ∈ items.map (·.1) then items.map (·.1) else items.map (·.1) ++ [key] := by
  induction items with
  | nil => rfl
  | cons item items ih =>
      obtain ⟨k, v⟩ := item
      rw [setItem]
      by_cases hk : k = key
      · subst hk
        simp
      · have hne : ¬ key = k := fun h => hk h.symm
        rw [if_neg hk, List.map_cons, ih]
        by_cases hmem : key ∈ items.map (·.1)
        · simp [hmem]
        · simp [hmem, hne]

theorem nodup_setItem (h : (items.map (·.1)).Nodup) : ((setItem key value items).map (·.1)).Nodup := by
  rw [keys_setItem]
  split
  · exact h
  · next hnot => exact List.nodup_append.mpr ⟨h, List.nodup_singleton _, by
      intro k hk k' hk' heq
      obtain rfl := List.mem_singleton.mp hk'
      exact hnot (heq ▸ hk)⟩

/-- `_custom_fields` fills a dict. -/
theorem nodup_customFields {numeric : Decimal → Decimal} {rows : List CustomValueRow}
    (h : customFields numeric rows = some items) : (items.map (·.1)).Nodup := by
  obtain ⟨pairs, -, rfl⟩ := Option.map_eq_some_iff.mp h
  have hfill : ∀ (pairs result : List (String × Json)), (result.map (·.1)).Nodup →
      ((pairs.foldl (fun result pair => setItem pair.1 pair.2 result) result).map
        (·.1)).Nodup := by
    intro pairs
    induction pairs with
    | nil => exact fun _ hresult => hresult
    | cons pair pairs ih => exact fun result hresult => ih _ (nodup_setItem hresult)
  exact hfill pairs [] List.nodup_nil

theorem lookup_setDefault (h : lookup name items = some w) :
    lookup name (setDefault key value items) = some w := by
  unfold setDefault
  split
  · exact h
  · next hnone =>
      induction items with
      | nil => cases h
      | cons item items ih =>
          rw [lookup] at h hnone
          rw [List.cons_append, lookup]
          split at h
          · next hname => rw [if_pos hname]; exact h
          · next hname =>
              rw [if_neg hname]
              split at hnone
              · cases hnone
              · exact ih h hnone

/-- **A rule reads a custom field under `field.<code>`**, whatever the other codes are. -/
theorem lookup_routingValues (hnodup : (ticket.customFields.map (·.1)).Nodup)
    (hvalue : lookup code ticket.customFields = some value) :
    lookup (fieldName code) (routingValues ticket) = some value := by
  unfold routingValues
  generalize builtinValues ticket = values
  generalize ticket.customFields = fields at hnodup hvalue
  -- the later fields have other codes, so they leave the name alone
  have hlater : ∀ (fields values : List (String × Json)), code ∉ fields.map (·.1) →
      lookup (fieldName code) values = some value →
        lookup (fieldName code) (fields.foldl (fun values field =>
          setDefault field.1 field.2 (setItem (fieldName field.1) field.2 values)) values) =
            some value := by
    intro fields
    induction fields with
    | nil => exact fun _ _ h => h
    | cons field fields ih =>
        intro values hnot hread
        rw [List.map_cons, List.mem_cons, not_or] at hnot
        refine ih _ hnot.2 (lookup_setDefault ?_)
        rw [lookup_setItem, if_neg fun heq => hnot.1 (fieldName_injective heq).symm]
        exact hread
  induction fields generalizing values with
  | nil => cases hvalue
  | cons field fields ih =>
      rw [List.map_cons, List.nodup_cons] at hnodup
      rw [lookup] at hvalue
      split at hvalue
      · next hcode =>
          obtain rfl := Option.some.inj hvalue
          subst hcode
          refine hlater fields _ hnodup.1 (lookup_setDefault ?_)
          rw [lookup_setItem, if_pos rfl]
      · exact ih _ hnodup.2 hvalue

/-! ## 2. Comparisons -/

/-- What the ordering operators mean. -/
def compares : Operator → Option (ℚ → ℚ → Bool)
  | .greaterThan => some fun x y => y < x
  | .greaterThanOrEqual => some fun x y => y ≤ x
  | .lessThan => some fun x y => x < y
  | .lessThanOrEqual => some fun x y => x ≤ y
  | _ => none

/-- A JSON number. -/
def jsonNumber? : Json → Option ℚ
  | .int n => some n
  | .float x => x.value?
  | _ => none

/-- A rule that compares a custom field. -/
def comparison (code operator : String) (w : Json) : Json :=
  .dict [("field", .str (fieldName code)), ("operator", .str operator), ("value", w)]

/-- A text and a number have no order. -/
theorem compareOp_text (op : Operator) (text : String) {y : ℚ} (hy : jsonNumber? w = some y) :
    compareOp op (.str text) w = false := by
  cases w with
  | int n => cases op <;> rfl
  | float x => cases op <;> rfl
  | _ => cases hy

theorem number_never_compares {numeric : Decimal → Decimal} {rows : List CustomValueRow}
    {d : Decimal} {op : Operator} {holds : ℚ → ℚ → Bool} {y : ℚ}
    (hrows : (rows.map (·.fieldCode)).Nodup)
    (hrow : { fieldCode := code, numberValue := some d } ∈ rows)
    (hfields : customFields numeric rows = some ticket.customFields)
    (hop : operator? name = some op) (hholds : compares op = some holds)
    (hy : jsonNumber? w = some y) :
    evaluate (comparison code name w) (routingValues ticket) = .ok false := by
  obtain ⟨pairs, hpairs, hfilled⟩ := Option.map_eq_some_iff.mp hfields
  have hpointwise := mapM_option.mp hpairs
  obtain ⟨pair, hpair, hread⟩ := mem_of_forall₂ hpointwise.flip hrow
  obtain rfl : (code, .str (numeric d).text) = pair := Option.some.inj hread
  have hkeys : (pairs.map (·.1)).Nodup := by
    rw [codes_of_items hpointwise]
    exact hrows
  have hstored : lookup code ticket.customFields = some (.str (numeric d).text) := by
    rw [← hfilled, lookup_filled hkeys, lookup_of_mem hkeys hpair]
    rfl
  have hlookup := lookup_routingValues (nodup_customFields hfields) hstored
  have hleaf : evaluate (comparison code name w) (routingValues ticket) =
      applyOperator op (.str (numeric d).text) w := by
    have hname : operatorOf (.str name) = .ok op := by
      rw [operatorOf, hop]
    rw [comparison, evaluate]
    · simp [evaluateLeaf, getD, lookup, hname, hlookup]
      rfl
    · simp
    · simp
  rw [hleaf]
  have hcompare := compareOp_text op (numeric d).text hy
  cases op with
  | greaterThan | greaterThanOrEqual | lessThan | lessThanOrEqual =>
      exact congrArg Except.ok hcompare
  | _ => cases hholds

/-- **A comparison is right exactly where the numbers do not compare.** -/
theorem compared_iff {numeric : Decimal → Decimal} {rows : List CustomValueRow}
    {d : Decimal} {op : Operator} {holds : ℚ → ℚ → Bool}
    (hrows : (rows.map (·.fieldCode)).Nodup)
    (hrow : { fieldCode := code, numberValue := some d } ∈ rows)
    (hfields : customFields numeric rows = some ticket.customFields)
    (hop : operator? name = some op) (hholds : compares op = some holds) :
    ∀ x ∈ (numeric d).value?, ∀ y ∈ jsonNumber? w,
      (evaluate (comparison code name w) (routingValues ticket) = .ok (holds x y) ↔
        holds x y = false) := by
  intro x _ y hy
  rw [number_never_compares hrows hrow hfields hop hholds hy]
  exact ⟨fun h => (Except.ok.inj h).symm, fun h => by rw [h]⟩

/-- A ticket with one number. -/
def amountRows (coefficient : Nat) : List CustomValueRow :=
  [{ fieldCode := "amount", numberValue := some (.finite false coefficient 0) }]

def amountTicket (coefficient : Nat) : RoutingTicket :=
  ⟨1, 2, "ERP-1", 3, "ERP", none, none, none, none, none, "INCIDENT", "P4", "OPEN", "Ledger", none,
    none, none, 1, [("amount", .str (exponentFree (.finite false coefficient 0)).text)]⟩

theorem compared_iff_amount :
    evaluate (comparison "amount" "greater_than" (.int 10)) (routingValues (amountTicket 5)) =
        .ok (decide ((10 : ℚ) < 5)) ↔ decide ((10 : ℚ) < 5) = false := by
  have hrows : ((amountRows 5).map (·.fieldCode)).Nodup := by decide
  have hholds : compares .greaterThan = some fun x y => decide (y < x) := rfl
  have hamount : (5 : ℚ) ∈ (exponentFree (.finite false 5 0)).value? := by
    simp [exponentFree, Decimal.value?]
  have hten : (10 : ℚ) ∈ jsonNumber? (.int 10) := by
    simp [jsonNumber?]
  exact compared_iff hrows (List.mem_singleton_self _) rfl rfl hholds 5 hamount 10 hten

/-- **Ten is not greater than five**, to a rule. -/
theorem ten_not_greater_than_five :
    ¬ ∀ (numeric : Decimal → Decimal) (rows : List CustomValueRow) (ticket : RoutingTicket)
      (d : Decimal) (code name : String) (op : Operator) (holds : ℚ → ℚ → Bool) (w : Json),
      (rows.map (·.fieldCode)).Nodup → { fieldCode := code, numberValue := some d } ∈ rows →
      customFields numeric rows = some ticket.customFields →
      operator? name = some op → compares op = some holds →
      ∀ x ∈ (numeric d).value?, ∀ y ∈ jsonNumber? w,
        evaluate (comparison code name w) (routingValues ticket) = .ok (holds x y) := by
  intro hclaim
  have hcompared := hclaim exponentFree (amountRows 10) (amountTicket 10) (.finite false 10 0)
    "amount" "greater_than" .greaterThan (fun x y => y < x) (.int 5) (by decide)
    (List.mem_singleton_self _) rfl rfl rfl 10 (by simp [exponentFree, Decimal.value?]) 5
    (by simp [jsonNumber?])
  have hfalse : evaluate (comparison "amount" "greater_than" (.int 5))
      (routingValues (amountTicket 10)) = .ok false := by rfl
  rw [hfalse] at hcompared
  have hlt : decide ((5 : ℚ) < 10) = true := by decide
  rw [hlt] at hcompared
  cases hcompared

end Helpdesk.Routing
