/-
  File:      Helpdesk/Tickets/CustomValues.lean
  Subject:   The custom values of a ticket: written to typed columns
             (`persist_custom_values` of apps/api/app/tickets/repository.py), read back
             for the routing rules (`_custom_fields` and `_json_value` of
             apps/api/app/routing/repository.py).

  A value's row refers to its field by the code and to an option by the option's row,
  as the joins resolve them. Every column gives back what was written, a timestamp its
  instant in UTC; what a numeric column makes of a decimal is a parameter.

  * `asStored`, `exponentFree`: a numeric column that keeps the form of a decimal, and
    one, such as PostgreSQL's, that keeps no positive exponent and no negative zero;
  * `decode_encode`: one value, written and read;
  * `restored_iff`: exactly when routing sees the values of the submission.
-/
import Helpdesk.Routing.Selection
import Helpdesk.Tickets.Revalidation

namespace Helpdesk.Tickets

open Helpdesk.Python Helpdesk.Routing Json

/-! ## 1. Rows -/

/-- A row of `itsm.ticket_custom_value`. -/
structure CustomValueRow where
  fieldCode : String
  textValue : Option String := none
  numberValue : Option Decimal := none
  dateValue : Option CalendarDate := none
  timestampValue : Option Instant := none
  booleanValue : Option Bool := none
  userValue : Option Uuid := none
  groupValue : Option Uuid := none
  serviceValue : Option Uuid := none
  optionValue : Option OptionRow := none
  jsonValue : Option Json := none

/-- `bool(value)`. -/
def truthy : Json → Bool
  | .null => false
  | .bool b => b
  | .int n => n ≠ 0
  | .float x => !numEq x (.finite 0 0)
  | .str s => s ≠ ""
  | .list items => !items.isEmpty
  | .dict items => !items.isEmpty

/-- The active option of a field with a code. -/
def activeOption (group : FieldGroup) (code : String) : Option OptionRow :=
  (group.records.filterMap (·.option)).find? fun row => row.optionCode = code

/-- The row of one value; `none` is a `ValueError`, or a datetime without a time zone. -/
def encode (group : FieldGroup) (value : Json) : Option CustomValueRow :=
  let code := group.code
  match group.field.dataType with
  | .text | .longText => some { fieldCode := code, textValue := some (pyStr value) }
  | .number =>
      (Decimal.decimal? (pyStr value)).map fun d => { fieldCode := code, numberValue := some d }
  | .date => (date? (pyStr value)).map fun date => { fieldCode := code, dateValue := some date }
  | .timestamp =>
      (datetime? (pyStr value)).bind fun parsed => parsed.offset.map fun offset =>
        { fieldCode := code,
          timestampValue := some (AwareDatetime.mk parsed.date parsed.time offset).instant }
  | .boolean => some { fieldCode := code, booleanValue := some (truthy value) }
  | .user => (uuid? (pyStr value)).map fun id => { fieldCode := code, userValue := some id }
  | .group => (uuid? (pyStr value)).map fun id => { fieldCode := code, groupValue := some id }
  | .service | .module_ =>
      (uuid? (pyStr value)).map fun id => { fieldCode := code, serviceValue := some id }
  | .singleSelect =>
      some { fieldCode := code, optionValue := activeOption group (pyStr value) }
  | .asset | .multiSelect | .jsonObject => some { fieldCode := code, jsonValue := some value }

/-- The row of an item, by the definition of its field. -/
def rowOf (groups : List FieldGroup) (item : String × Json) : Option CustomValueRow :=
  (groups.find? fun group => group.code = item.1).bind fun group => encode group item.2

/-- `persist_custom_values`: a row for each value that is not null. -/
def persistCustomValues (groups : List FieldGroup) (values : List (String × Json)) :
    Option (List CustomValueRow) :=
  (values.filter fun item => !isNull item.2).mapM (rowOf groups)

/-! ## 2. What routing reads -/

/-- `_json_value` of a timestamp, `none` where its year is beyond Python's. -/
def timestampText (at_ : Instant) : Option Json :=
  (AwareDatetime.utc? at_).map fun value => .str value.text

/-- The first column that is not null, through `_json_value`. -/
def decode (numeric : Decimal → Decimal) (row : CustomValueRow) : Option Json :=
  match row.textValue, row.numberValue, row.dateValue, row.timestampValue with
  | some text, _, _, _ => some (.str text)
  | none, some d, _, _ => some (.str (numeric d).text)
  | none, none, some date, _ => some (.str date.isoformat)
  | none, none, none, some at_ => timestampText at_
  | none, none, none, none =>
      match row.booleanValue, row.userValue <|> row.groupValue <|> row.serviceValue with
      | some b, _ => some (.bool b)
      | none, some id => some (.str (uuidText id))
      | none, none =>
          match row.optionValue with
          | some option => some (.str option.optionCode)
          | none => some (row.jsonValue.getD .null)

/-- An item of the result. -/
def itemOf (numeric : Decimal → Decimal) (row : CustomValueRow) : Option (String × Json) :=
  (decode numeric row).map fun value => (row.fieldCode, value)

/-- `_custom_fields`. -/
def customFields (numeric : Decimal → Decimal) (rows : List CustomValueRow) :
    Option (List (String × Json)) :=
  (rows.mapM (itemOf numeric)).map fun items =>
    items.foldl (fun result (code, value) => setItem code value result) []

/-- A numeric column that keeps the form of a decimal. -/
def asStored (d : Decimal) : Decimal := d

/-- A numeric column that has no positive exponents and no negative zero. -/
def exponentFree : Decimal → Decimal
  | .finite negative coefficient exponent =>
      .finite (negative && coefficient ≠ 0) (coefficient * 10 ^ exponent.toNat) (min exponent 0)
  | value => value

/-! ## 3. One value -/

/-- The separator of a datetime's text. -/
theorem chars_separator (value : AwareDatetime) (sep : Char) :
    (value.chars sep)[10]? = some sep := by
  have hlength := value.date.chars_length
  rw [AwareDatetime.chars, List.getElem?_append_right (by omega), hlength]
  rfl

theorem isoformat_ne_text (value value' : AwareDatetime) : value.isoformat ≠ value'.text := by
  intro heq
  have hchars : value.chars 'T' = value'.chars ' ' := by
    have htext := congrArg String.toList heq
    simpa [AwareDatetime.isoformat, AwareDatetime.text] using htext
  have hT := chars_separator value 'T'
  rw [hchars, chars_separator] at hT
  cases hT

theorem activeOption_code {group : FieldGroup} {code : String} (h : code ∈ group.options) :
    ∃ row, activeOption group code = some row ∧ row.optionCode = code := by
  obtain ⟨row, hrow, hcode⟩ := List.mem_map.mp h
  cases hfind : activeOption group code with
  | none =>
      have hnone := List.find?_eq_none.mp hfind row hrow
      simp [hcode] at hnone
  | some found =>
      have hfound := List.find?_some hfind
      exact ⟨found, rfl, by simpa using hfound⟩

/-- A value that reads back unless its type is one of the two that may not. -/
def Survives (numeric : Decimal → Decimal) (group : FieldGroup) (v : Json) : Prop :=
  group.field.dataType ≠ .timestamp ∧
    (group.field.dataType = .number → ∀ d : Decimal, d.Normal → v = .str d.text →
      (numeric d).text = d.text)

/-- **One value, written and read.** -/
theorem decode_encode {numeric : Decimal → Decimal} {group : FieldGroup} {v : Json}
    {row : CustomValueRow} (h : NormalForm group v) (hrow : encode group v = some row) :
    decode numeric row = some v ↔ Survives numeric group v := by
  have hplain : group.field.dataType ≠ .timestamp → group.field.dataType ≠ .number →
      decode numeric row = some v → (decode numeric row = some v ↔ Survives numeric group v) := by
    intro htime hnumber hsame
    exact ⟨fun _ => ⟨htime, fun heq => absurd heq hnumber⟩, fun _ => hsame⟩
  cases h with
  | text htype =>
      simp only [encode, htype, Option.some.injEq] at hrow
      subst hrow
      exact hplain (by simp [htype]) (by simp [htype]) rfl
  | longText htype =>
      simp only [encode, htype, Option.some.injEq] at hrow
      subst hrow
      exact hplain (by simp [htype]) (by simp [htype]) rfl
  | @number d htype hnormal =>
      have hread : Decimal.decimal? (pyStr (.str d.text)) = some d := hnormal.decimal?_text
      simp only [encode, htype, hread, Option.map_some, Option.some.injEq] at hrow
      subst hrow
      have hdecode : ∀ {s : String}, (some (Json.str (numeric d).text) = some (.str s)) ↔
          (numeric d).text = s := by simp
      simp only [decode, hdecode]
      constructor
      · intro hsame
        refine ⟨by simp [htype], fun _ d' hd' htext => ?_⟩
        have hd := hnormal.decimal?_text
        rw [Json.str.inj htext, hd'.decimal?_text] at hd
        cases hd
        exact hsame
      · rintro ⟨_, hsame⟩
        exact hsame htype d hnormal rfl
  | boolean htype =>
      simp only [encode, htype, Option.some.injEq] at hrow
      subst hrow
      exact hplain (by simp [htype]) (by simp [htype]) rfl
  | @date date htype =>
      have hread : date? (pyStr (.str date.isoformat)) = some date := date?_isoformat date
      simp only [encode, htype, hread, Option.map_some, Option.some.injEq] at hrow
      subst hrow
      exact hplain (by simp [htype]) (by simp [htype]) rfl
  | @timestamp time htype =>
      have hread : datetime? (pyStr (.str time.isoformat)) =
          some ⟨time.date, time.time, some time.offset⟩ := datetime?_isoformat time
      simp only [encode, htype, hread, Option.bind_some, Option.map_some,
        Option.some.injEq] at hrow
      subst hrow
      constructor
      · intro hsame
        obtain ⟨value, _, hvalue⟩ := Option.map_eq_some_iff.mp hsame
        exact absurd (Json.str.inj hvalue).symm (isoformat_ne_text time value)
      · rintro ⟨htime, _⟩
        exact absurd htype htime
  | @reference id htype hid =>
      have hread : uuid? (pyStr (.str (uuidText id))) = some id := uuid?_uuidText hid
      cases hdata : group.field.dataType <;> rw [hdata] at htype <;> try cases htype
      all_goals
        simp only [encode, hdata, hread, Option.map_some, Option.some.injEq] at hrow
        subst hrow
        exact hplain (by simp [hdata]) (by simp [hdata]) rfl
  | @selection code htype hactive =>
      obtain ⟨option, hoption, rfl⟩ := activeOption_code hactive
      have hfound : activeOption group (pyStr (.str option.optionCode)) = some option := hoption
      simp only [encode, htype, hfound, Option.some.injEq] at hrow
      subst hrow
      exact hplain (by simp [htype]) (by simp [htype]) rfl
  | selections htype =>
      simp only [encode, htype, Option.some.injEq] at hrow
      subst hrow
      exact hplain (by simp [htype]) (by simp [htype]) rfl
  | object htype =>
      simp only [encode, htype, Option.some.injEq] at hrow
      subst hrow
      exact hplain (by simp [htype]) (by simp [htype]) rfl

/-! ## 4. Lookups -/

theorem lookup_setItem {key name : String} {value : Json} {items : List (String × Json)} :
    lookup name (setItem key value items) = if key = name then some value else lookup name items := by
  induction items with
  | nil => rfl
  | cons item items ih =>
      obtain ⟨k, v⟩ := item
      rw [setItem]
      by_cases hk : k = key
      · rw [if_pos hk, hk]
        by_cases hn : key = name <;> simp [lookup, hn]
      · rw [if_neg hk, lookup, lookup, ih]
        by_cases hn : k = name
        · have hne : key ≠ name := fun h => hk (hn.trans h.symm)
          rw [if_pos hn, if_pos hn, if_neg hne]
        · rw [if_neg hn, if_neg hn]

/-- A dict filled from items with distinct keys. -/
theorem lookup_filled {items : List (String × Json)} (hnodup : (items.map (·.1)).Nodup) :
    ∀ (result : List (String × Json)) (name : String),
      lookup name (items.foldl (fun result (code, value) => setItem code value result) result) =
        (lookup name items).or (lookup name result) := by
  induction items with
  | nil => exact fun _ _ => rfl
  | cons item items ih =>
      obtain ⟨hnot, hrest⟩ := List.nodup_cons.mp hnodup
      intro result name
      rw [List.foldl_cons, ih hrest, lookup_setItem, lookup]
      by_cases hname : item.1 = name
      · have hnone : lookup name items = none := lookup_eq_none_iff.mpr (hname ▸ hnot)
        simp [hname, hnone]
      · simp [hname]

theorem encode_fieldCode {group : FieldGroup} {value : Json} {row : CustomValueRow}
    (h : encode group value = some row) : row.fieldCode = group.code := by
  unfold encode at h
  generalize group.field.dataType = type at h
  cases type with
  | text | longText | boolean | singleSelect | asset | multiSelect | jsonObject =>
      cases h
      rfl
  | number | date | user | group | service | module_ =>
      obtain ⟨_, _, rfl⟩ := Option.map_eq_some_iff.mp h
      rfl
  | timestamp =>
      obtain ⟨_, _, hoffset⟩ := Option.bind_eq_some_iff.mp h
      obtain ⟨_, _, rfl⟩ := Option.map_eq_some_iff.mp hoffset
      rfl

/-! ## 5. The whole ticket -/

variable {records : List FormFieldRecord} {supplied : List CustomFieldInput} {complete : Bool}
  {r : List (String × Json)} {rows rows' : List CustomValueRow} {numeric : Decimal → Decimal}

/-- **Routing sees the values of the submission**, and no others. -/
def Restored (numeric : Decimal → Decimal) (rows : List CustomValueRow)
    (values : List (String × Json)) : Prop :=
  ∃ env, customFields numeric rows = some env ∧
    ∀ code, lookup code env = (lookup code values).filter fun value => !isNull value

/-- The rows are those of the values that are not null. -/
structure RowsOf (groups : List FieldGroup) (values : List (String × Json))
    (rows : List CustomValueRow) : Prop where
  distinct : (rows.map (·.fieldCode)).Nodup
  of_row : ∀ row ∈ rows, ∃ group ∈ groups, ∃ value, (group.code, value) ∈ values ∧
    isNull value = false ∧ encode group value = some row
  of_value : ∀ group ∈ groups, ∀ value, (group.code, value) ∈ values → isNull value = false →
    ∃ row ∈ rows, encode group value = some row

theorem RowsOf.perm {groups : List FieldGroup} (h : RowsOf groups r rows) (hperm : rows'.Perm rows) :
    RowsOf groups r rows' where
  distinct := (hperm.map _).nodup_iff.mpr h.distinct
  of_row := fun row hrow => h.of_row row (hperm.mem_iff.mp hrow)
  of_value := fun group hgroup value hmem hnull => by
    obtain ⟨row, hrow, hencode⟩ := h.of_value group hgroup value hmem hnull
    exact ⟨row, hperm.mem_iff.mpr hrow, hencode⟩

theorem rowOf_some {groups : List FieldGroup} {item : String × Json} {row : CustomValueRow}
    (h : rowOf groups item = some row) :
    ∃ group ∈ groups, group.code = item.1 ∧ encode group item.2 = some row := by
  obtain ⟨group, hgroup, hencode⟩ := Option.bind_eq_some_iff.mp h
  exact ⟨group, List.mem_of_find?_eq_some hgroup, by simpa using List.find?_some hgroup, hencode⟩

theorem codes_of_rows {groups : List FieldGroup} {items : List (String × Json)}
    (h : List.Forall₂ (fun item row => rowOf groups item = some row) items rows) :
    rows.map (·.fieldCode) = items.map (·.1) := by
  induction h with
  | nil => rfl
  | cons hrow _ ih =>
      obtain ⟨group, _, hcode, hencode⟩ := rowOf_some hrow
      rw [List.map_cons, List.map_cons, ih, encode_fieldCode hencode, hcode]

theorem rowsOf_persist {groups : List FieldGroup} (hcodes : (codes groups).Nodup)
    (hkeys : (r.map (·.1)).Nodup) (h : persistCustomValues groups r = some rows) :
    RowsOf groups r rows := by
  have hrows := mapM_option.mp h
  constructor
  · rw [codes_of_rows hrows]
    exact hkeys.sublist (List.filter_sublist.map _)
  · intro row hrow
    obtain ⟨item, hitem, hencode⟩ := mem_of_forall₂ hrows hrow
    obtain ⟨hmem, hnull⟩ := List.mem_filter.mp hitem
    obtain ⟨group, hgroup, hcode, hrow⟩ := rowOf_some hencode
    exact ⟨group, hgroup, item.2, hcode ▸ hmem, by simpa using hnull, hrow⟩
  · intro group hgroup value hmem hnull
    have hitem : (group.code, value) ∈ r.filter fun item => !isNull item.2 :=
      List.mem_filter.mpr ⟨hmem, by simpa using hnull⟩
    obtain ⟨row, hrow, hencode⟩ := mem_of_forall₂ hrows.flip hitem
    obtain ⟨other, hother, hcode, hencode⟩ := rowOf_some hencode
    obtain rfl : other = group := List.inj_on_of_nodup_map hcodes hother hgroup hcode
    exact ⟨row, hrow, hencode⟩

theorem codes_of_items {items : List (String × Json)}
    (h : List.Forall₂ (fun row item => itemOf numeric row = some item) rows items) :
    items.map (·.1) = rows.map (·.fieldCode) := by
  induction h with
  | nil => rfl
  | cons hitem _ ih =>
      obtain ⟨value, _, rfl⟩ := Option.map_eq_some_iff.mp hitem
      rw [List.map_cons, List.map_cons, ih]

/-- The dict of rows that all read. -/
theorem customFields_eq_some {groups : List FieldGroup} (hrows : RowsOf groups r rows)
    {env : List (String × Json)} (h : customFields numeric rows = some env) :
    (∀ row ∈ rows, ∃ value, decode numeric row = some value ∧
      lookup row.fieldCode env = some value) ∧
    ∀ code, code ∉ rows.map (·.fieldCode) → lookup code env = none := by
  obtain ⟨items, hitems, rfl⟩ := Option.map_eq_some_iff.mp h
  have hpairs := mapM_option.mp hitems
  have hcodes := codes_of_items hpairs
  have hnodup : (items.map (·.1)).Nodup := by
    rw [hcodes]
    exact hrows.distinct
  constructor
  · intro row hrow
    obtain ⟨item, hitem, hread⟩ := mem_of_forall₂ hpairs.flip hrow
    obtain ⟨value, hvalue, rfl⟩ := Option.map_eq_some_iff.mp hread
    refine ⟨value, hvalue, ?_⟩
    rw [lookup_filled hnodup, lookup_of_mem hnodup hitem]
    rfl
  · intro code hcode
    rw [lookup_filled hnodup, lookup_eq_none_iff.mpr (by rwa [hcodes])]
    rfl

/-- **Every stored value survives, or routing sees another one.** -/
theorem restored_iff_survives {groups : List FieldGroup} (hrows : RowsOf groups r rows)
    (hkeys : (r.map (·.1)).Nodup)
    (hknown : ∀ item ∈ r, item.1 ∈ codes groups)
    (hnormal : ∀ group ∈ groups, ∀ value, (group.code, value) ∈ r →
      isNull value = false → NormalForm group value) :
    Restored numeric rows r ↔ ∀ group ∈ groups, ∀ value, (group.code, value) ∈ r →
      isNull value = false → Survives numeric group value := by
  have hdecode : ∀ {group value row}, group ∈ groups → (group.code, value) ∈ r →
      isNull value = false → encode group value = some row →
        (decode numeric row = some value ↔ Survives numeric group value) :=
    fun hgroup hmem hnull hencode => decode_encode (hnormal _ hgroup _ hmem hnull) hencode
  constructor
  · rintro ⟨env, hfields, hlookup⟩ group hgroup value hmem hnull
    obtain ⟨row, hrow, hencode⟩ := hrows.of_value group hgroup value hmem hnull
    obtain ⟨read, hread, henv⟩ := (customFields_eq_some hrows hfields).1 row hrow
    have hsame := hlookup group.code
    rw [← encode_fieldCode hencode, henv, encode_fieldCode hencode,
      lookup_of_mem hkeys hmem] at hsame
    obtain rfl : read = value := by simpa [Option.filter, hnull] using hsame
    exact (hdecode hgroup hmem hnull hencode).mp hread
  · intro hsurvives
    have hreads : ∀ row ∈ rows, ∃ item, itemOf numeric row = some item := by
      intro row hrow
      obtain ⟨group, hgroup, value, hmem, hnull, hencode⟩ := hrows.of_row row hrow
      have hread := (hdecode hgroup hmem hnull hencode).mpr (hsurvives group hgroup value hmem hnull)
      exact ⟨_, by rw [itemOf, hread]; rfl⟩
    obtain ⟨items, hitems⟩ := mapM_option_ok hreads
    obtain ⟨env, hfields⟩ : ∃ env, customFields numeric rows = some env :=
      ⟨_, by rw [customFields, hitems]; rfl⟩
    obtain ⟨hread, habsent⟩ := customFields_eq_some hrows hfields
    refine ⟨env, hfields, fun code => ?_⟩
    cases hvalue : (lookup code r).filter fun value => !isNull value with
    | some value =>
        obtain ⟨hlookup, hnull⟩ := Option.filter_eq_some_iff.mp hvalue
        have hnull : isNull value = false := by simpa using hnull
        have hmem := mem_of_lookup hlookup
        obtain ⟨group, hgroup, rfl⟩ := List.mem_map.mp (hknown _ hmem)
        obtain ⟨row, hrow, hencode⟩ := hrows.of_value group hgroup value hmem hnull
        obtain ⟨value', hvalue', henv⟩ := hread row hrow
        have hsame := (hdecode hgroup hmem hnull hencode).mpr (hsurvives group hgroup value hmem hnull)
        rw [← encode_fieldCode hencode, henv, ← hvalue', hsame]
    | none =>
        apply habsent
        intro hin
        obtain ⟨row, hrow, rfl⟩ := List.mem_map.mp hin
        obtain ⟨group, _, value, hmem, hnull, hencode⟩ := hrows.of_row row hrow
        rw [encode_fieldCode hencode, lookup_of_mem hkeys hmem] at hvalue
        simp [Option.filter, hnull] at hvalue

/-! ## 6. Which values survive -/

/-- The number of a value has a normal form that PostgreSQL keeps. -/
def PlainNumber (value : Json) : Prop :=
  ∀ negative coefficient exponent,
    (Decimal.decimal? (pyStr value)).bind Decimal.normalize =
        some (.finite negative coefficient exponent) →
      exponent ≤ 0 ∧ (coefficient = 0 → negative = false)

/-- A column without exponents keeps the text of the normal forms without a positive one. -/
theorem exponentFree_text {negative : Bool} {coefficient : Nat} {exponent : Int}
    (h : (Decimal.finite negative coefficient exponent).Normal) :
    (exponentFree (.finite negative coefficient exponent)).text =
        (Decimal.finite negative coefficient exponent).text ↔
      exponent ≤ 0 ∧ (coefficient = 0 → negative = false) := by
  cases h with
  | zero =>
      cases negative
      · simp [exponentFree]
      · exact iff_of_false (by decide +kernel) (by simp)
  | digits _ hlast hbounded hlower hupper =>
      have hne : coefficient ≠ 0 := by
        rintro rfl
        exact hlast rfl
      by_cases hexponent : exponent ≤ 0
      · have hzero : exponent.toNat = 0 := by omega
        simp [exponentFree, hzero, hne, hexponent]
      · refine iff_of_false ?_ (fun hkeep => hexponent hkeep.1)
        intro htext
        have hpos : 0 < Decimal.numDigits coefficient + exponent.toNat := by
          have := Decimal.numDigits_pos coefficient
          omega
        have hlt : coefficient * 10 ^ exponent.toNat <
            10 ^ (Decimal.numDigits coefficient + exponent.toNat) := by
          rw [Nat.pow_add]
          exact Nat.mul_lt_mul_of_pos_right
            ((Decimal.numDigits_le_iff (Decimal.numDigits_pos _)).mp (Nat.le_refl _))
            (Nat.pow_pos (by decide))
        have hexact : Decimal.exact (coefficient * 10 ^ exponent.toNat) (min exponent 0) := by
          have hcount := (Decimal.numDigits_le_iff hpos).mpr hlt
          simp only [Decimal.exact, Decimal.emax] at hupper ⊢
          omega
        have hread : Decimal.decimal? (exponentFree (.finite negative coefficient exponent)).text =
            some (exponentFree (.finite negative coefficient exponent)) := Decimal.decimal?_text hexact
        have hself : Decimal.Normal (.finite negative coefficient exponent) :=
          .digits negative hlast hbounded hlower hupper
        rw [htext, hself.decimal?_text] at hread
        simp only [exponentFree, Option.some.injEq, Decimal.finite.injEq] at hread
        omega

variable {group : FieldGroup} {raw : List (String × Json)} {entry : Option Json}

/-- The stored value of a field, by its supplied one. -/
theorem Accepted.stored (h : Accepted complete raw group entry) {value : Json} :
    (entry = some value ∧ isNull value = false) ↔
      isBlank (getD raw group.code) = false ∧ normalize group (getD raw group.code) = .ok value := by
  cases h with
  | inapplicable _ hblank => simp [hblank]
  | blank _ hblank _ =>
      simp only [hblank, Option.some.injEq, Bool.true_eq_false, false_and, iff_false, not_and]
      rintro rfl
      decide
  | @value v _ hgiven hnormal _ =>
      have hnull : isNull v = false := by
        cases normalForm_of_normalize hnormal <;> rfl
      simp only [hgiven, hnormal, Except.ok.injEq, Option.some.injEq, true_and]
      exact ⟨fun h => h.1, fun h => ⟨h, h ▸ hnull⟩⟩

theorem survives_asStored {v : Json} :
    Survives asStored group v ↔ group.field.dataType ≠ .timestamp :=
  ⟨fun h => h.1, fun h => ⟨h, fun _ _ _ _ => rfl⟩⟩

theorem survives_exponentFree {value v : Json} (h : normalize group value = .ok v) :
    Survives exponentFree group v ↔ group.field.dataType ≠ .timestamp ∧
      (group.field.dataType = .number → PlainNumber value) := by
  apply and_congr_right'
  apply imp_congr_right
  intro htype
  simp only [normalize, htype] at h
  obtain ⟨d, hnormal, hnumber, rfl⟩ := normalizeNumber_ok h
  obtain ⟨negative, coefficient, exponent, rfl⟩ := decimal?_normal_cases hnormal
  rw [PlainNumber, hnumber]
  constructor
  · intro hsame negative' coefficient' exponent' heq
    cases heq
    exact (exponentFree_text hnormal).mp (hsame _ hnormal rfl)
  · intro hplain d' hd' htext
    have hsame := hnormal.decimal?_text
    rw [Json.str.inj htext, hd'.decimal?_text] at hsame
    cases hsame
    exact (exponentFree_text hnormal).mpr (hplain _ _ _ rfl)

/-- **Routing sees the values of the submission** if and only if no timestamp was given; where
    the numeric column has no positive exponents and no negative zero, if and only if moreover
    the normal form of no number has one. -/
theorem restored_iff (haccepted : validateAndNormalize records supplied complete = .ok r)
    (hrows : persistCustomValues (grouped records) r = some rows) (hperm : rows'.Perm rows) :
    (Restored asStored rows' r ↔ ∀ group ∈ grouped records,
      isBlank (getD (supply supplied).raw group.code) = false →
        group.field.dataType ≠ .timestamp) ∧
    (Restored exponentFree rows' r ↔ ∀ group ∈ grouped records,
      isBlank (getD (supply supplied).raw group.code) = false →
        group.field.dataType ≠ .timestamp ∧
        (group.field.dataType = .number →
          PlainNumber (getD (supply supplied).raw group.code))) := by
  obtain ⟨_, _, hfields, hr⟩ := validateAndNormalize_ok.mp haccepted
  have hcodes := grouped_nodup records
  have hkeys : (r.map (·.1)).Nodup := hr ▸ itemsOf_nodup hcodes
  have hstored : ∀ group ∈ grouped records, ∀ value,
      ((group.code, value) ∈ r ∧ isNull value = false) ↔
        isBlank (getD (supply supplied).raw group.code) = false ∧
          normalize group (getD (supply supplied).raw group.code) = .ok value := by
    intro group hgroup value
    obtain ⟨entry, hentry⟩ := hfields group hgroup
    rw [← hentry.stored, ← hentry.entryOf, hr]
    have hlookup : lookup group.code
        (itemsOf (grouped records) (entryOf complete (supply supplied).raw)) =
          entryOf complete (supply supplied).raw group := lookup_itemsOf hcodes hgroup
    apply and_congr_left'
    rw [← hlookup]
    exact ⟨lookup_of_mem (itemsOf_nodup hcodes), mem_of_lookup⟩
  have hknown : ∀ item ∈ r, item.1 ∈ codes (grouped records) := by
    intro item hitem
    obtain ⟨group, hgroup, hcode, _⟩ := mem_itemsOf.mp (hr ▸ hitem)
    exact hcode ▸ List.mem_map_of_mem hgroup
  have hsurvives : ∀ {numeric : Decimal → Decimal}, Restored numeric rows' r ↔
      ∀ group ∈ grouped records, isBlank (getD (supply supplied).raw group.code) = false →
        ∀ value, normalize group (getD (supply supplied).raw group.code) = .ok value →
          Survives numeric group value := by
    intro numeric
    rw [restored_iff_survives ((rowsOf_persist hcodes hkeys hrows).perm hperm) hkeys hknown
      fun group hgroup value hmem hnull =>
        normalForm_of_normalize ((hstored group hgroup value).mp ⟨hmem, hnull⟩).2]
    constructor
    · intro h group hgroup hgiven value hvalue
      obtain ⟨hmem, hnull⟩ := (hstored group hgroup value).mpr ⟨hgiven, hvalue⟩
      exact h group hgroup value hmem hnull
    · intro h group hgroup value hmem hnull
      obtain ⟨hgiven, hvalue⟩ := (hstored group hgroup value).mp ⟨hmem, hnull⟩
      exact h group hgroup hgiven value hvalue
  have hnormal : ∀ group ∈ grouped records,
      isBlank (getD (supply supplied).raw group.code) = false →
        ∃ value, normalize group (getD (supply supplied).raw group.code) = .ok value := by
    intro group hgroup hgiven
    obtain ⟨entry, hentry⟩ := hfields group hgroup
    cases hentry with
    | inapplicable _ hblank => rw [hblank] at hgiven; cases hgiven
    | blank _ hblank _ => rw [hblank] at hgiven; cases hgiven
    | value _ _ hvalue _ => exact ⟨_, hvalue⟩
  constructor
  · rw [hsurvives]
    constructor
    · intro h group hgroup hgiven
      obtain ⟨value, hvalue⟩ := hnormal group hgroup hgiven
      exact survives_asStored.mp (h group hgroup hgiven value hvalue)
    · intro h group hgroup hgiven value _
      exact survives_asStored.mpr (h group hgroup hgiven)
  · rw [hsurvives]
    constructor
    · intro h group hgroup hgiven
      obtain ⟨value, hvalue⟩ := hnormal group hgroup hgiven
      exact (survives_exponentFree hvalue).mp (h group hgroup hgiven value hvalue)
    · intro h group hgroup hgiven value hvalue
      exact (survives_exponentFree hvalue).mpr (h group hgroup hgiven)

/-! ## 7. Two tickets -/

def dueForm : List FormFieldRecord := [fieldRecord "due" .timestamp (.dict [])]

def dueDraft : List CustomFieldInput := [⟨"due", .str "2026-03-01T09:30:00Z"⟩]

/-- Routing sees another text at `due` than the one that was stored. -/
def dueDiffers : Bool :=
  match validateAndNormalize dueForm dueDraft true with
  | .ok r =>
      match persistCustomValues (grouped dueForm) r with
      | some rows =>
          match customFields asStored rows with
          | some env =>
              match lookup "due" env, lookup "due" r with
              | some (.str seen), some (.str stored) => seen ≠ stored
              | _, _ => false
          | none => false
      | none => false
  | .error _ => false

/-- A timestamp is stored as `2026-03-01T09:30:00+00:00` and seen by routing as
    `2026-03-01 09:30:00+00:00`. -/
theorem timestamp_not_restored :
    ¬ ∀ records supplied complete r rows,
      validateAndNormalize records supplied complete = .ok r →
        persistCustomValues (grouped records) r = some rows → Restored asStored rows r := by
  intro hall
  have hdiffers : dueDiffers = true := by decide +kernel
  unfold dueDiffers at hdiffers
  split at hdiffers
  · next r hr =>
      split at hdiffers
      · next rows hrows =>
          obtain ⟨env, henv, hlookup⟩ := hall _ _ _ _ _ hr hrows
          have hdue := hlookup "due"
          rw [henv] at hdiffers
          dsimp only at hdiffers
          split at hdiffers
          · next seen stored hseen hstored =>
              rw [hseen, hstored] at hdue
              have hsame : seen = stored := by simpa [Option.filter, isNull] using hdue
              simp [hsame] at hdiffers
          · cases hdiffers
      · cases hdiffers
  · cases hdiffers

theorem restored_iff_sample :
    ∃ r rows, validateAndNormalize titleForm titleDraft true = .ok r ∧
      persistCustomValues (grouped titleForm) r = some rows ∧ Restored asStored rows r ∧
      Restored exponentFree rows r := by
  have hstored : (match validateAndNormalize titleForm titleDraft true with
      | .ok r => (persistCustomValues (grouped titleForm) r).isSome
      | .error _ => false) = true := by decide +kernel
  split at hstored
  · next r hr =>
      obtain ⟨rows, hrows⟩ := Option.isSome_iff_exists.mp hstored
      obtain ⟨hasStored, hexponentFree⟩ := restored_iff hr hrows (List.Perm.refl rows)
      have htype : ∀ group ∈ grouped titleForm, group.field.dataType = .text := by
        intro group hgroup
        obtain rfl : group = ⟨fieldRecord "title" .text (.dict []), []⟩ :=
          List.mem_singleton.mp hgroup
        rfl
      refine ⟨r, rows, hr, hrows, hasStored.mpr ?_, hexponentFree.mpr ?_⟩
      · intro group hgroup _
        simp [htype group hgroup]
      · intro group hgroup _
        simp [htype group hgroup]
  · cases hstored

end Helpdesk.Tickets
