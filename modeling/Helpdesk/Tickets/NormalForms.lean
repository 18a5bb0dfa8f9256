/-
  File:      Helpdesk/Tickets/NormalForms.lean
  Subject:   The values `_normalize` returns.

  * `normalForm_of_normalize`: what it returns is a normal form of the field's type;
  * `NormalForm.normalize`: a normal form is returned as it is;
  * `NormalForm.blank_iff`: a value that was not blank has a blank normal form only if
    it is a text of white space.
-/
import Helpdesk.Tickets.Validation
import Mathlib.Data.List.Dedup

namespace Helpdesk.Tickets

open Helpdesk.Python Json

variable {group : FieldGroup} {value v : Json}

def DataType.isText : DataType → Bool
  | .text | .longText => true
  | _ => false

def DataType.isReference : DataType → Bool
  | .user | .group | .service | .module_ | .asset => true
  | _ => false

/-- The normal forms of a field. -/
inductive NormalForm (group : FieldGroup) : Json → Prop
  | text {s : String} (type : group.field.dataType = .text) (collapsed : collapseText s = s) :
      NormalForm group (.str s)
  | longText {s : String} (type : group.field.dataType = .longText) (stripped : stripText s = s) :
      NormalForm group (.str s)
  | number {d : Decimal} (type : group.field.dataType = .number) (normal : d.Normal) :
      NormalForm group (.str d.text)
  | boolean {b : Bool} (type : group.field.dataType = .boolean) : NormalForm group (.bool b)
  | date {date : CalendarDate} (type : group.field.dataType = .date) :
      NormalForm group (.str date.isoformat)
  | timestamp {time : AwareDatetime} (type : group.field.dataType = .timestamp) :
      NormalForm group (.str time.isoformat)
  | reference {id : Uuid} (type : group.field.dataType.isReference = true) (valid : id < 2 ^ 128) :
      NormalForm group (.str (uuidText id))
  | selection {code : String} (type : group.field.dataType = .singleSelect)
      (active : code ∈ group.options) : NormalForm group (.str code)
  | selections {codes : List String} (type : group.field.dataType = .multiSelect)
      (sorted : sortedSet codes = codes) (active : codes ⊆ group.options) :
      NormalForm group (.list (codes.map .str))
  | object {items : List (String × Json)} (type : group.field.dataType = .jsonObject)
      (size : (dumps (.dict items)).length ≤ 20000) : NormalForm group (.dict items)

/-! ## 1. What is returned -/

theorem normalizeNumber_ok (h : normalizeNumber value = .ok v) :
    ∃ d : Decimal, d.Normal ∧ (Decimal.decimal? (pyStr value)).bind Decimal.normalize = some d ∧
      v = .str d.text := by
  unfold normalizeNumber at h
  split at h
  · cases h
  · split at h
    · cases h
    · next hread =>
        split at h
        · next hnormal =>
            cases h
            refine ⟨_, Decimal.normal_of_normalize hnormal, ?_, rfl⟩
            rw [hread]
            exact hnormal
        · cases h
    · cases h

theorem normalizeBoolean_ok (h : normalizeBoolean value = .ok v) : ∃ b, v = .bool b := by
  unfold normalizeBoolean at h
  split at h
  · cases h
    exact ⟨_, rfl⟩
  · split at h
    · cases h
      exact ⟨_, rfl⟩
    · cases h
  · cases h

theorem normalizeDate_ok (h : normalizeDate value = .ok v) :
    ∃ date : CalendarDate, v = .str date.isoformat := by
  unfold normalizeDate at h
  split at h
  · cases h
    exact ⟨_, rfl⟩
  · cases h

theorem normalizeTimestamp_ok (h : normalizeTimestamp value = .ok v) :
    ∃ time : AwareDatetime, v = .str time.isoformat := by
  unfold normalizeTimestamp at h
  split at h
  · cases h
  · cases h
  · cases h
    exact ⟨_, rfl⟩

theorem uuid?_lt {text : String} {id : Uuid} (h : uuid? text = some id) : id < 2 ^ 128 := by
  unfold uuid? at h
  simp only at h
  split at h
  · cases h
  · obtain ⟨n, _, hn⟩ := Option.bind_eq_some_iff.mp h
    split at hn
    · next hrange =>
        cases hn
        have hlt : (n.toNat : Int) < ((2 ^ 128 : Nat) : Int) := by
          rw [Int.toNat_of_nonneg hrange.1]
          exact_mod_cast hrange.2
        exact_mod_cast hlt
    · cases hn

theorem normalizeReference_ok (h : normalizeReference value = .ok v) :
    ∃ id : Uuid, id < 2 ^ 128 ∧ v = .str (uuidText id) := by
  unfold normalizeReference at h
  split at h
  · next huuid =>
      cases h
      exact ⟨_, uuid?_lt huuid, rfl⟩
  · cases h

theorem normalizeSelection_ok {options : List String} (h : normalizeSelection options value = .ok v) :
    ∃ code ∈ options, v = .str code := by
  unfold normalizeSelection at h
  split at h
  · split at h
    · next hmem =>
        cases h
        exact ⟨_, hmem, rfl⟩
    · cases h
  · cases h

theorem sortedSet_sortedSet (codes : List String) : sortedSet (sortedSet codes) = sortedSet codes := by
  unfold sortedSet
  have hperm := List.perm_insertionSort (· ≤ ·) codes.dedup
  have hnodup : (codes.dedup.insertionSort (· ≤ ·)).Nodup := hperm.nodup_iff.mpr (List.nodup_dedup codes)
  rw [hnodup.dedup]
  exact (List.pairwise_insertionSort (· ≤ ·) codes.dedup).insertionSort_eq

theorem mapM_string?_length : ∀ {items : List Json} {codes : List String},
    items.mapM string? = some codes → items.length = codes.length
  | [], codes, h => by
      cases h
      rfl
  | item :: items, codes, h => by
      rw [List.mapM_cons] at h
      obtain ⟨code, _, h⟩ := Option.bind_eq_some_iff.mp h
      obtain ⟨rest, hrest, h⟩ := Option.bind_eq_some_iff.mp h
      cases h
      rw [List.length_cons, List.length_cons, mapM_string?_length hrest]

theorem mapM_string?_str (codes : List String) : (codes.map Json.str).mapM string? = some codes := by
  induction codes with
  | nil => rfl
  | cons code codes ih => simp [string?, ih]

theorem normalizeSelections_ok {options : List String}
    (h : normalizeSelections options value = .ok v) :
    ∃ items codes, value = .list items ∧ items.length = codes.length ∧ sortedSet codes = codes ∧
      codes ⊆ options ∧ v = .list (codes.map .str) := by
  unfold normalizeSelections at h
  split at h
  · next items =>
    split at h
    · cases h
    · next codes hcodes =>
      split at h
      · cases h
      · next hlength =>
        split at h
        · cases h
        · next hsubset =>
            cases h
            have hcount := mapM_string?_length hcodes
            refine ⟨items, sortedSet codes, rfl, ?_, sortedSet_sortedSet codes,
              not_not.mp hsubset, rfl⟩
            rw [hcount, not_not.mp hlength]
  · cases h

/-- **What `_normalize` returns is a normal form.** -/
theorem normalForm_of_normalize (h : normalize group value = .ok v) : NormalForm group v := by
  unfold normalize at h
  split at h
  case h_1 htype =>
    split at h
    · cases h
      exact .text htype (collapseText_collapseText _)
    · cases h
  case h_2 htype =>
    split at h
    · cases h
      refine .longText htype ?_
      rw [stripText, stripText, String.toList_ofList, strip_strip]
    · cases h
  case h_3 htype =>
    obtain ⟨d, hd, _, rfl⟩ := normalizeNumber_ok h
    exact .number htype hd
  case h_4 htype =>
    obtain ⟨b, rfl⟩ := normalizeBoolean_ok h
    exact .boolean htype
  case h_5 htype =>
    obtain ⟨date, rfl⟩ := normalizeDate_ok h
    exact .date htype
  case h_6 htype =>
    obtain ⟨time, rfl⟩ := normalizeTimestamp_ok h
    exact .timestamp htype
  case h_12 htype =>
    obtain ⟨code, hcode, rfl⟩ := normalizeSelection_ok h
    exact .selection htype hcode
  case h_13 htype =>
    obtain ⟨items, codes, _, _, hsorted, hsubset, rfl⟩ := normalizeSelections_ok h
    exact .selections htype hsorted hsubset
  case h_14 htype =>
    unfold normalizeObject at h
    split at h
    · split at h
      · cases h
      · next hsize =>
          cases h
          exact .object htype (Nat.le_of_not_lt hsize)
    · cases h
  all_goals
    -- the five types of references
    next htype =>
      obtain ⟨id, hid, rfl⟩ := normalizeReference_ok h
      exact .reference (by rw [htype]; rfl) hid

/-! ## 2. A normal form is its own -/

theorem decimal?_normal_cases {d : Decimal} (h : d.Normal) :
    ∃ negative coefficient exponent, d = .finite negative coefficient exponent := by
  cases h with
  | zero negative => exact ⟨_, _, _, rfl⟩
  | digits negative => exact ⟨_, _, _, rfl⟩

theorem normalizeNumber_text {d : Decimal} (h : d.Normal) :
    normalizeNumber (.str d.text) = .ok (.str d.text) := by
  have hread : Decimal.decimal? (pyStr (.str d.text)) = some d := h.decimal?_text
  have hnormal := h.normalize
  obtain ⟨negative, coefficient, exponent, rfl⟩ := decimal?_normal_cases h
  unfold normalizeNumber
  simp only [hread, hnormal]

theorem zuluText_isoformat (time : AwareDatetime) : zuluText (.str time.isoformat) = time.isoformat := by
  have hnot : 'Z' ∉ time.chars 'T' := by
    intro hmem
    rcases time.iso_chars (Or.inr (by decide)) hmem with hdigit | hother
    · cases hdigit
    · exact absurd hother (by decide)
  have htext : (pyStr (.str time.isoformat)).toList = time.chars 'T' := String.toList_ofList
  rw [zuluText, htext, replace_of_not_mem hnot]
  rfl

theorem normalize_reference (h : group.field.dataType.isReference = true) (value : Json) :
    normalize group value = normalizeReference value := by
  unfold normalize
  generalize group.field.dataType = type at h
  cases type with
  | user | group | service | module_ | asset => rfl
  | text | longText | number | date | timestamp | boolean | singleSelect | multiSelect
    | jsonObject => cases h

/-- **A normal form is returned as it is.** -/
theorem NormalForm.normalize (h : NormalForm group v) : normalize group v = .ok v := by
  cases h with
  | text htype hcollapsed => simp only [Tickets.normalize, htype, hcollapsed]
  | longText htype hstripped => simp only [Tickets.normalize, htype, hstripped]
  | number htype hnormal =>
      simp only [Tickets.normalize, htype]
      exact normalizeNumber_text hnormal
  | boolean htype => simp only [Tickets.normalize, htype, normalizeBoolean]
  | date htype =>
      simp only [Tickets.normalize, htype, normalizeDate, pyStr, date?_isoformat]
  | timestamp htype =>
      simp only [Tickets.normalize, htype, normalizeTimestamp, zuluText_isoformat,
        datetime?_isoformat]
  | @reference id htype hid =>
      rw [normalize_reference htype]
      simp only [normalizeReference, pyStr, uuid?_uuidText hid]
  | selection htype hactive =>
      simp only [Tickets.normalize, htype, normalizeSelection, if_pos hactive]
  | @selections codes htype hsorted hactive =>
      simp only [Tickets.normalize, htype, normalizeSelections, mapM_string?_str, hsorted, ne_eq,
        not_true_eq_false, if_false, hactive]
  | object htype hsize =>
      simp only [Tickets.normalize, htype, normalizeObject, if_neg (Nat.not_lt_of_le hsize)]

/-! ## 3. Blank normal forms -/

/-- A text of white space in a field of text. -/
def WhiteSpace (group : FieldGroup) (value : Json) : Prop :=
  group.field.dataType.isText = true ∧ ∃ s, value = .str s ∧ ∀ c ∈ s.toList, isSpace c = true

theorem isBlank_str {s : String} : isBlank (.str s) = true ↔ s = "" := by
  simp [isBlank, pyIn, pyEq]

/-- A text that some parser reads, and not the empty text, is not blank. -/
theorem not_blank_of_read {α : Type} {read : String → Option α} {s : String} {a : α}
    (h : read s = some a) (hempty : read "" = none) : isBlank (.str s) = false := by
  rw [Bool.eq_false_iff, ne_eq, isBlank_str]
  rintro rfl
  rw [hempty] at h
  cases h

/-- **A blank normal form of a value that was not blank** comes from white space. -/
theorem blank_iff (h : normalize group value = .ok v) (hvalue : isBlank value = false) :
    isBlank v = true ↔ WhiteSpace group value := by
  have hother : group.field.dataType.isText = false → isBlank v = false →
      (isBlank v = true ↔ WhiteSpace group value) := by
    intro htype hv
    simp [WhiteSpace, htype, hv]
  cases normalForm_of_normalize h with
  | text htype =>
      simp only [normalize, htype] at h
      split at h
      · cases h
        simp [isBlank_str, collapseText_eq_empty_iff, WhiteSpace, htype, DataType.isText]
      · cases h
  | longText htype =>
      simp only [normalize, htype] at h
      split at h
      · cases h
        simp [isBlank_str, stripText_eq_empty_iff, WhiteSpace, htype, DataType.isText]
      · cases h
  | number htype hnormal =>
      exact hother (by rw [htype]; rfl) (not_blank_of_read hnormal.decimal?_text (by decide))
  | boolean htype => exact hother (by rw [htype]; rfl) rfl
  | date htype => exact hother (by rw [htype]; rfl) (not_blank_of_read (date?_isoformat _) (by decide))
  | timestamp htype =>
      exact hother (by rw [htype]; rfl) (not_blank_of_read (datetime?_isoformat _) (by decide))
  | reference htype hid =>
      refine hother ?_ (not_blank_of_read (uuid?_uuidText hid) (by decide))
      revert htype
      cases group.field.dataType <;> decide
  | selection htype hactive =>
      simp only [normalize, htype] at h
      unfold normalizeSelection at h
      split at h
      · split at h
        · cases h
          exact hother (by rw [htype]; rfl) hvalue
        · cases h
      · cases h
  | selections htype =>
      simp only [normalize, htype] at h
      obtain ⟨items, codes', rfl, hlength, _, _, hv⟩ := normalizeSelections_ok h
      cases items with
      | nil => cases hvalue
      | cons item items =>
          cases codes' with
          | nil => cases hlength
          | cons code codes' =>
              exact hother (by rw [htype]; rfl) (by rw [hv]; rfl)
  | object htype => exact hother (by rw [htype]; rfl) rfl

end Helpdesk.Tickets
