/-
  File:      Helpdesk/Tickets/Revalidation.lean
  Subject:   The check of a draft's custom fields, run again on what it stored.

  The second run sees each value in its normal form, and no blank one. So the outcome
  is the same unless a condition tells a supplied value from its normal form, or the
  normal form of a value is blank.

  * `validateAndNormalize_ok`: which inputs are accepted, field by field;
  * `revalidated_iff`: exactly when the stored values are accepted as they are;
  * `number_flips_condition`: a draft that was accepted and is refused.
-/
import Helpdesk.Tickets.NormalForms

namespace Helpdesk.Tickets

open Helpdesk.Python Json

variable {records : List FormFieldRecord} {supplied : List CustomFieldInput} {complete : Bool}
  {raw : List (String × Json)} {group : FieldGroup} {groups : List FieldGroup}
  {entry : Option Json}

/-! ## 1. Groups and lookups -/

def codes (groups : List FieldGroup) : List String := groups.map (·.code)

theorem codes_addRecord (record : FormFieldRecord) (groups : List FieldGroup) :
    codes (addRecord record groups) =
      if record.fieldCode ∈ codes groups then codes groups
      else codes groups ++ [record.fieldCode] := by
  induction groups with
  | nil => rfl
  | cons group groups ih =>
      by_cases hcode : group.code = record.fieldCode
      · have hsame : codes (addRecord record (group :: groups)) = codes (group :: groups) := by
          rw [addRecord, if_pos hcode]
          rfl
        have hmem : record.fieldCode ∈ codes (group :: groups) := by
          rw [← hcode]
          exact List.mem_cons_self
        rw [hsame, if_pos hmem]
      · have hstep : codes (addRecord record (group :: groups)) =
            group.code :: codes (addRecord record groups) := by
          simp [addRecord, hcode, codes]
        have hmem : record.fieldCode ∈ codes (group :: groups) ↔
            record.fieldCode ∈ codes groups := by
          simp [codes, Ne.symm hcode]
        rw [hstep, ih]
        by_cases hin : record.fieldCode ∈ codes groups
        · rw [if_pos hin, if_pos (hmem.mpr hin)]
          rfl
        · rw [if_neg hin, if_neg (fun h => hin (hmem.mp h))]
          rfl

/-- Each code has one group. -/
theorem grouped_nodup (records : List FormFieldRecord) : (codes (grouped records)).Nodup := by
  have hfold : ∀ (records : List FormFieldRecord) (groups : List FieldGroup),
      (codes groups).Nodup →
        (codes (records.foldl (fun groups record => addRecord record groups) groups)).Nodup := by
    intro records
    induction records with
    | nil => exact fun _ h => h
    | cons record records ih =>
        intro groups h
        apply ih
        rw [codes_addRecord]
        by_cases hin : record.fieldCode ∈ codes groups
        · rwa [if_pos hin]
        · rw [if_neg hin]
          exact List.nodup_append.mpr ⟨h, List.nodup_singleton _, by
            intro a ha b hb
            rw [List.mem_singleton.mp hb]
            rintro rfl
            exact hin ha⟩
  exact hfold records [] List.nodup_nil

/-- Items under the codes of groups. -/
def itemsOf (groups : List FieldGroup) (entryOf : FieldGroup → Option Json) : List (String × Json) :=
  groups.filterMap fun group => (entryOf group).map fun value => (group.code, value)

theorem itemsOf_congr {entryOf entryOf' : FieldGroup → Option Json}
    (h : ∀ group ∈ groups, entryOf group = entryOf' group) :
    itemsOf groups entryOf = itemsOf groups entryOf' :=
  List.filterMap_congr fun group hgroup => by rw [h group hgroup]

theorem mem_itemsOf {entryOf : FieldGroup → Option Json} {name : String} {value : Json} :
    (name, value) ∈ itemsOf groups entryOf ↔
      ∃ group ∈ groups, group.code = name ∧ entryOf group = some value := by
  constructor
  · intro h
    obtain ⟨group, hgroup, hitem⟩ := List.mem_filterMap.mp h
    obtain ⟨v, hv, hpair⟩ := Option.map_eq_some_iff.mp hitem
    cases hpair
    exact ⟨group, hgroup, rfl, hv⟩
  · rintro ⟨group, hgroup, rfl, hentry⟩
    exact List.mem_filterMap.mpr ⟨group, hgroup, by rw [hentry]; rfl⟩

theorem itemsOf_nodup {entryOf : FieldGroup → Option Json} (hnodup : (codes groups).Nodup) :
    ((itemsOf groups entryOf).map (·.1)).Nodup := by
  have hsublist : ((itemsOf groups entryOf).map (·.1)).Sublist (codes groups) := by
    clear hnodup
    induction groups with
    | nil => exact List.Sublist.slnil
    | cons group groups ih =>
        cases hentry : entryOf group with
        | none => simpa [itemsOf, codes, hentry] using ih.cons group.code
        | some value => simpa [itemsOf, codes, hentry] using ih.cons_cons group.code
  exact hnodup.sublist hsublist

theorem lookup_itemsOf_of_not_mem {entryOf : FieldGroup → Option Json} {name : String}
    (h : name ∉ codes groups) : lookup name (itemsOf groups entryOf) = none := by
  rw [lookup_eq_none_iff]
  intro hin
  obtain ⟨item, hitem, rfl⟩ := List.mem_map.mp hin
  obtain ⟨group, hgroup, hcode, _⟩ := mem_itemsOf.mp hitem
  exact h (hcode ▸ List.mem_map_of_mem hgroup)

theorem lookup_itemsOf {entryOf : FieldGroup → Option Json} (hnodup : (codes groups).Nodup)
    (hmem : group ∈ groups) : lookup group.code (itemsOf groups entryOf) = entryOf group := by
  cases hentry : entryOf group with
  | some value =>
      exact lookup_of_mem (itemsOf_nodup hnodup) (mem_itemsOf.mpr ⟨group, hmem, rfl, hentry⟩)
  | none =>
      rw [lookup_eq_none_iff]
      intro hin
      obtain ⟨item, hitem, hname⟩ := List.mem_map.mp hin
      obtain ⟨other, hother, hcode, hvalue⟩ := mem_itemsOf.mp hitem
      -- the codes tell the groups apart
      obtain rfl : other = group :=
        List.inj_on_of_nodup_map hnodup hother hmem (hcode.trans hname)
      rw [hentry] at hvalue
      cases hvalue

/-! ## 2. What is accepted -/

/-- A field that leaves no error, and its entry. -/
inductive Accepted (complete : Bool) (raw : List (String × Json)) (group : FieldGroup) :
    Option Json → Prop
  | inapplicable (applies : conditionApplies group.field.condition raw = .ok false)
      (blank : isBlank (getD raw group.code) = true) : Accepted complete raw group none
  | blank (applies : conditionApplies group.field.condition raw = .ok true)
      (blank : isBlank (getD raw group.code) = true)
      (optional : (group.field.required && complete) = false) :
      Accepted complete raw group (some .null)
  | value {v : Json} (applies : conditionApplies group.field.condition raw = .ok true)
      (given : isBlank (getD raw group.code) = false)
      (normal : normalize group (getD raw group.code) = .ok v)
      (bounded : validateBounds group.field v = .ok []) : Accepted complete raw group (some v)

theorem validateField_iff :
    validateField complete raw group = .ok ⟨[], entry⟩ ↔ Accepted complete raw group entry := by
  constructor
  · intro h
    unfold validateField at h
    obtain ⟨applies, happlies, h⟩ := bind_eq_ok.mp h
    cases applies with
    | false =>
        simp only [Bool.false_eq_true, if_false, pure_eq_ok, FieldResult.mk.injEq] at h
        obtain ⟨hmessages, rfl⟩ := h
        have hblank : isBlank (getD raw group.code) = true := by
          by_cases hgiven : isBlank (getD raw group.code) = true
          · exact hgiven
          · cases hlookup : lookup group.code raw with
            | none => rw [getD, hlookup]; rfl
            | some value => simp [hlookup, hgiven] at hmessages
        exact .inapplicable happlies hblank
    | true =>
        simp only [if_true] at h
        split at h
        · next hblank =>
            simp only [pure_eq_ok, FieldResult.mk.injEq] at h
            obtain ⟨hmessages, rfl⟩ := h
            refine .blank happlies hblank ?_
            by_cases hmissing : (group.field.required && complete) = true
            · simp [hmissing] at hmessages
            · exact Bool.eq_false_iff.mpr hmissing
        · next hgiven =>
            split at h
            · simp [pure_eq_ok] at h
            · exact absurd h (by simp [throw_ne_ok])
            · next v hnormal =>
                obtain ⟨messages, hbounds, h⟩ := bind_eq_ok.mp h
                simp only [pure_eq_ok, FieldResult.mk.injEq] at h
                obtain ⟨rfl, rfl⟩ := h
                exact .value happlies (Bool.eq_false_iff.mpr hgiven) hnormal hbounds
  · intro h
    cases h with
    | inapplicable happlies hblank =>
        simp [validateField, happlies, hblank, bind, Except.bind, pure, Except.pure]
    | blank happlies hblank hoptional =>
        simp [validateField, happlies, hblank, hoptional, bind, Except.bind, pure, Except.pure]
    | value happlies hgiven hnormal hbounded =>
        simp [validateField, happlies, hgiven, hnormal, hbounded, bind, Except.bind, pure,
          Except.pure]

/-- The entry of a field. -/
def entryOf (complete : Bool) (raw : List (String × Json)) (group : FieldGroup) : Option Json :=
  match validateField complete raw group with
  | .ok result => result.entry
  | .error _ => none

theorem Accepted.entryOf (h : Accepted complete raw group entry) :
    entryOf complete raw group = entry := by
  rw [Tickets.entryOf, validateField_iff.mpr h]

theorem entries_eq {results : List FieldResult}
    (h : List.Forall₂ (fun g r => validateField complete raw g = .ok r) groups results) :
    entries groups results = itemsOf groups (entryOf complete raw) := by
  induction h with
  | nil => rfl
  | @cons g r gs rs hg _ ih =>
      have hentry : entryOf complete raw g = r.entry := by rw [Tickets.entryOf, hg]
      unfold entries itemsOf at ih ⊢
      rw [List.zip_cons_cons, List.filterMap_cons, List.filterMap_cons, ih, hentry]

theorem messages_nil {results : List FieldResult}
    (h : List.Forall₂ (fun g r => validateField complete raw g = .ok r) groups results) :
    (groups.zip results).flatMap (fun (group, result) =>
      result.messages.map fun message => (group.code, message)) = [] ↔
    ∀ group ∈ groups, ∃ entry, Accepted complete raw group entry := by
  induction h with
  | nil => simp
  | @cons g r gs rs hg _ ih =>
      rw [List.zip_cons_cons, List.flatMap_cons, List.append_eq_nil_iff, ih, List.forall_mem_cons]
      apply and_congr_left'
      constructor
      · intro hmessages
        have hnil : r.messages = [] := by simpa using hmessages
        exact ⟨r.entry, validateField_iff.mp (by rw [hg, ← hnil])⟩
      · rintro ⟨entry, haccepted⟩
        have hsame := (validateField_iff.mpr haccepted).symm.trans hg
        cases hsame
        rfl

/-- **Which inputs are accepted**: each code once and one of the form's, and no error at any
    field; the result is the entries of the fields. -/
theorem validateAndNormalize_ok {r : List (String × Json)} :
    validateAndNormalize records supplied complete = .ok r ↔
      (supply supplied).repeated = [] ∧
      (∀ name ∈ (supply supplied).raw.map (·.1), name ∈ codes (grouped records)) ∧
      (∀ group ∈ grouped records, ∃ entry, Accepted complete (supply supplied).raw group entry) ∧
      r = itemsOf (grouped records) (entryOf complete (supply supplied).raw) := by
  have hunknown : ((supply supplied).raw.map (·.1)).filter
      (fun code => code ∉ (grouped records).map (·.code)) = [] ↔
        ∀ name ∈ (supply supplied).raw.map (·.1), name ∈ codes (grouped records) := by
    rw [List.filter_eq_nil_iff]
    simp only [decide_not, Bool.not_eq_true', decide_eq_false_iff_not, not_not]
    rfl
  have hnoted : ∀ {results : List FieldResult},
      List.Forall₂ (fun g r => validateField complete (supply supplied).raw g = .ok r)
        (grouped records) results →
      (noted (supply supplied) (grouped records) results = [] ↔
        (supply supplied).repeated = [] ∧
        (∀ name ∈ (supply supplied).raw.map (·.1), name ∈ codes (grouped records)) ∧
        ∀ group ∈ grouped records, ∃ entry, Accepted complete (supply supplied).raw group entry) := by
    intro results hrows
    rw [noted, List.append_eq_nil_iff, List.append_eq_nil_iff, List.map_eq_nil_iff,
      List.map_eq_nil_iff, hunknown, messages_nil hrows, and_assoc]
  constructor
  · intro h
    unfold validateAndNormalize at h
    simp only at h
    split at h
    · cases h
    · next results hresults =>
        have hrows := mapM_pointwise hresults
        split at h
        · next hnil =>
            cases h
            obtain ⟨hrepeated, hknown, haccepted⟩ := (hnoted hrows).mp hnil
            exact ⟨hrepeated, hknown, haccepted, entries_eq hrows⟩
        · cases h
  · rintro ⟨hrepeated, hknown, haccepted, rfl⟩
    have hfields : ∀ group ∈ grouped records,
        ∃ result, validateField complete (supply supplied).raw group = .ok result := by
      intro group hgroup
      obtain ⟨entry, hentry⟩ := haccepted group hgroup
      exact ⟨_, validateField_iff.mpr hentry⟩
    obtain ⟨results, hresults⟩ := mapM_ok hfields
    have hrows := mapM_pointwise hresults
    have hnil := (hnoted hrows).mpr ⟨hrepeated, hknown, haccepted⟩
    unfold validateAndNormalize
    simp only [hresults, hnil, entries_eq hrows]

/-! ## 3. The stored values -/

def isNull : Json → Bool
  | .null => true
  | _ => false

/-- The entries that are not null, as the check reads them again. -/
def storedInputs (stored : List (String × Json)) : List CustomFieldInput :=
  (stored.filter fun item => !isNull item.2).map fun (code, value) => ⟨code, value⟩

/-- What is kept of the value supplied for a field: its normal form, or nothing. -/
def kept (raw : List (String × Json)) (group : FieldGroup) : Json :=
  if isBlank (getD raw group.code) then .null
  else match normalize group (getD raw group.code) with
    | .ok v => v
    | .error _ => .null

/-- The supplied values in their normal forms. -/
def keptValues (records : List FormFieldRecord) (raw : List (String × Json)) :
    List (String × Json) :=
  (grouped records).map fun group => (group.code, kept raw group)

theorem Accepted.kept (h : Accepted complete raw group entry) :
    entry.getD .null = kept raw group := by
  cases h with
  | inapplicable _ hblank => simp [Tickets.kept, hblank]
  | blank _ hblank _ => simp [Tickets.kept, hblank]
  | value _ hgiven hnormal _ => simp [Tickets.kept, hgiven, hnormal]

/-- Distinct codes are all taken. -/
theorem supply_distinct {items : List (String × Json)} (h : (items.map (·.1)).Nodup) :
    supply (items.map fun (code, value) => ⟨code, value⟩) = ⟨items, []⟩ := by
  have hfold : ∀ (items taken : List (String × Json)), ((taken ++ items).map (·.1)).Nodup →
      (items.map fun (code, value) => (⟨code, value⟩ : CustomFieldInput)).foldl Supplied.add
        ⟨taken, []⟩ = ⟨taken ++ items, []⟩ := by
    intro items
    induction items with
    | nil => simp
    | cons item items ih =>
        intro taken hnodup
        have hnot : item.1 ∉ taken.map (·.1) := by
          intro hin
          rw [List.map_append, List.nodup_append] at hnodup
          exact hnodup.2.2 _ hin _ List.mem_cons_self rfl
        have hstep : Supplied.add ⟨taken, []⟩ ⟨item.1, item.2⟩ = ⟨taken ++ [item], []⟩ := by
          simp [Supplied.add, lookup_eq_none_iff.mpr hnot]
        have hsplit : taken ++ [item] ++ items = taken ++ item :: items := by simp
        rw [List.map_cons, List.foldl_cons, hstep, ih (taken ++ [item]) (by rwa [hsplit]), hsplit]
  exact hfold items [] h

/-- The values of the second run. -/
def storedRaw (complete : Bool) (raw : List (String × Json)) (groups : List FieldGroup) :
    List (String × Json) :=
  itemsOf groups fun group => (entryOf complete raw group).filter fun value => !isNull value

theorem supply_storedInputs (hnodup : (codes groups).Nodup) :
    supply (storedInputs (itemsOf groups (entryOf complete raw))) =
      ⟨storedRaw complete raw groups, []⟩ := by
  have hfilter : (itemsOf groups (entryOf complete raw)).filter (fun item => !isNull item.2) =
      storedRaw complete raw groups := by
    rw [itemsOf, List.filter_filterMap, storedRaw, itemsOf]
    apply List.filterMap_congr
    intro group _
    cases entryOf complete raw group with
    | none => rfl
    | some value => cases hnull : isNull value <;> simp [Option.filter, hnull]
  rw [storedInputs, hfilter]
  exact supply_distinct (itemsOf_nodup hnodup)

/-- A field of the second run has what is kept of its value. -/
theorem getD_storedRaw (hnodup : (codes groups).Nodup) (hgroup : group ∈ groups)
    (h : Accepted complete raw group entry) :
    getD (storedRaw complete raw groups) group.code = kept raw group := by
  rw [← h.kept, getD, storedRaw, lookup_itemsOf hnodup hgroup, h.entryOf]
  cases entry with
  | none => rfl
  | some value => cases value <;> rfl

theorem conditionApplies_congr {condition : Json} {values values' : List (String × Json)}
    (h : ∀ name, getD values name = getD values' name) :
    conditionApplies condition values = conditionApplies condition values' := by
  simp only [conditionApplies, h]

/-- The conditions of the second run see the normal forms. -/
theorem conditionApplies_storedRaw (condition : Json)
    (h : ∀ group ∈ grouped records, ∃ entry, Accepted complete raw group entry) :
    conditionApplies condition (storedRaw complete raw (grouped records)) =
      conditionApplies condition (keptValues records raw) := by
  have hkept : keptValues records raw =
      itemsOf (grouped records) fun group => some (kept raw group) := by
    simp [keptValues, itemsOf]
  apply conditionApplies_congr
  intro name
  by_cases hname : name ∈ codes (grouped records)
  · obtain ⟨group, hgroup, rfl⟩ := List.mem_map.mp hname
    obtain ⟨entry, hentry⟩ := h group hgroup
    rw [getD_storedRaw (grouped_nodup records) hgroup hentry, hkept, getD,
      lookup_itemsOf (grouped_nodup records) hgroup]
    rfl
  · rw [hkept, storedRaw, getD, getD, lookup_itemsOf_of_not_mem hname,
      lookup_itemsOf_of_not_mem hname]

/-! ## 4. The second run -/

/-- **One field again**: its entry is the same if its condition decides alike and no text of
    white space was given. -/
theorem accepted_again_iff {raw' : List (String × Json)} (h : Accepted complete raw group entry)
    (hvalue : getD raw' group.code = kept raw group) :
    Accepted complete raw' group entry ↔
      conditionApplies group.field.condition raw = conditionApplies group.field.condition raw' ∧
      (isBlank (getD raw group.code) = false → ¬ WhiteSpace group (getD raw group.code)) := by
  cases h with
  | inapplicable happlies hblank =>
      have hkept : kept raw group = .null := by simp [kept, hblank]
      constructor
      · intro hagain
        cases hagain with
        | inapplicable happlies' _ => exact ⟨happlies.trans happlies'.symm, by simp [hblank]⟩
      · rintro ⟨happlies', _⟩
        exact .inapplicable (happlies' ▸ happlies) (by rw [hvalue, hkept]; rfl)
  | blank happlies hblank hoptional =>
      have hkept : kept raw group = .null := by simp [kept, hblank]
      constructor
      · intro hagain
        refine ⟨?_, by simp [hblank]⟩
        cases hagain with
        | blank happlies' _ _ => exact happlies.trans happlies'.symm
        | value happlies' _ _ _ => exact happlies.trans happlies'.symm
      · rintro ⟨happlies', _⟩
        exact .blank (happlies' ▸ happlies) (by rw [hvalue, hkept]; rfl) hoptional
  | @value v happlies hgiven hnormal hbounded =>
      have hkept : kept raw group = v := by simp [kept, hgiven, hnormal]
      rw [hkept] at hvalue
      have hblank := blank_iff hnormal hgiven
      constructor
      · intro hagain
        generalize hsame : some v = again at hagain
        cases hagain with
        | inapplicable => cases hsame
        | blank happlies' hblank' _ =>
            -- a normal form is never null
            cases hsame
            cases normalForm_of_normalize hnormal
        | value happlies' hgiven' _ _ =>
            refine ⟨happlies.trans happlies'.symm, fun _ hspace => ?_⟩
            rw [hvalue, hblank.mpr hspace] at hgiven'
            cases hgiven'
      · rintro ⟨happlies', hspace⟩
        have hgiven' : isBlank v = false := by
          rw [Bool.eq_false_iff, ne_eq, hblank]
          exact hspace hgiven
        refine .value (happlies' ▸ happlies) (by rw [hvalue]; exact hgiven') ?_ hbounded
        rw [hvalue]
        exact (normalForm_of_normalize hnormal).normalize

/-- **Stored values are accepted as they are** if and only if every condition decides alike on
    the supplied values and on their normal forms, and no text of white space was given. -/
theorem revalidated_iff {r : List (String × Json)}
    (h : validateAndNormalize records supplied complete = .ok r) :
    validateAndNormalize records (storedInputs r) complete = .ok r ↔
      ∀ group ∈ grouped records,
        conditionApplies group.field.condition (supply supplied).raw =
          conditionApplies group.field.condition (keptValues records (supply supplied).raw) ∧
        (isBlank (getD (supply supplied).raw group.code) = false →
          ¬ WhiteSpace group (getD (supply supplied).raw group.code)) := by
  obtain ⟨_, _, haccepted, rfl⟩ := validateAndNormalize_ok.mp h
  have hnodup := grouped_nodup records
  generalize (supply supplied).raw = raw at haccepted ⊢
  have hsupply := @supply_storedInputs complete raw _ hnodup
  have hfield : ∀ group ∈ grouped records,
      Accepted complete (storedRaw complete raw (grouped records)) group
          (entryOf complete raw group) ↔
        conditionApplies group.field.condition raw =
            conditionApplies group.field.condition (keptValues records raw) ∧
          (isBlank (getD raw group.code) = false → ¬ WhiteSpace group (getD raw group.code)) := by
    intro group hgroup
    obtain ⟨entry, hentry⟩ := haccepted group hgroup
    rw [← conditionApplies_storedRaw group.field.condition haccepted, hentry.entryOf]
    exact accepted_again_iff hentry (getD_storedRaw hnodup hgroup hentry)
  rw [validateAndNormalize_ok, hsupply]
  constructor
  · rintro ⟨_, _, hagain, hsame⟩ group hgroup
    obtain ⟨entry, hentry⟩ := hagain group hgroup
    have hlookup := congrArg (lookup group.code) hsame
    rw [lookup_itemsOf hnodup hgroup, lookup_itemsOf hnodup hgroup, hentry.entryOf] at hlookup
    exact (hfield group hgroup).mp (hlookup ▸ hentry)
  · intro hsame
    refine ⟨rfl, ?_, fun group hgroup => ⟨_, (hfield group hgroup).mpr (hsame group hgroup)⟩, ?_⟩
    · intro name hname
      obtain ⟨item, hitem, rfl⟩ := List.mem_map.mp hname
      obtain ⟨group, hgroup, hcode, _⟩ := mem_itemsOf.mp hitem
      exact hcode ▸ List.mem_map_of_mem hgroup
    · exact itemsOf_congr fun group hgroup =>
        ((hfield group hgroup).mpr (hsame group hgroup)).entryOf.symm

/-! ## 5. Two forms -/

def fieldRecord (code : String) (dataType : DataType) (condition : Json) : FormFieldRecord :=
  { fieldCode := code, dataType, required := false, validation := .dict [], condition,
    option := none }

/-- A number, and a text that is asked for when the number is 2. -/
def seatsForm : List FormFieldRecord :=
  [fieldRecord "seats" .number (.dict []),
   fieldRecord "note" .text (.dict [("all", .list [.dict
     [("field", .str "seats"), ("operator", .str "equals"), ("value", .int 2)]])])]

def seatsDraft : List CustomFieldInput := [⟨"seats", .int 2⟩, ⟨"note", .str "window"⟩]

/-- The stored number is the text `2`, which the condition tells from the number: the draft is
    accepted once, and refused when it is submitted. -/
theorem number_flips_condition :
    ¬ ∀ records supplied complete r, validateAndNormalize records supplied complete = .ok r →
      validateAndNormalize records (storedInputs r) complete = .ok r := by
  intro hall
  have hrefused : (match validateAndNormalize seatsForm seatsDraft true with
      | .ok r => (validateAndNormalize seatsForm (storedInputs r) true).isOk
      | .error _ => true) = false := by decide +kernel
  split at hrefused
  · next r hr =>
      rw [hall _ _ _ r hr] at hrefused
      cases hrefused
  · cases hrefused

def titleForm : List FormFieldRecord := [fieldRecord "title" .text (.dict [])]

def titleDraft : List CustomFieldInput := [⟨"title", .str "  A   title "⟩]

theorem revalidated_iff_sample :
    ∃ r, validateAndNormalize titleForm titleDraft true = .ok r ∧
      validateAndNormalize titleForm (storedInputs r) true = .ok r := by
  have haccepted : (validateAndNormalize titleForm titleDraft true).isOk = true := by decide +kernel
  obtain ⟨r, hr⟩ : ∃ r, validateAndNormalize titleForm titleDraft true = .ok r := by
    cases h : validateAndNormalize titleForm titleDraft true with
    | error e => rw [h] at haccepted; cases haccepted
    | ok r => exact ⟨r, rfl⟩
  refine ⟨r, hr, (revalidated_iff hr).mpr ?_⟩
  intro group hgroup
  obtain rfl : group = ⟨fieldRecord "title" .text (.dict []), []⟩ := List.mem_singleton.mp hgroup
  refine ⟨rfl, ?_⟩
  rintro _ ⟨_, s, hs, hspace⟩
  obtain rfl : "  A   title " = s := Json.str.inj hs
  exact absurd (hspace 'A' (by decide +kernel)) (by decide)

end Helpdesk.Tickets
