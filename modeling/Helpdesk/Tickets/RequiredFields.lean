/-
  File:      Helpdesk/Tickets/RequiredFields.lean
  Subject:   Required fields of a draft that is complete.

  A value is tested for being blank as it was supplied, and its normal form is what is
  kept: a text of white space is not blank, and nothing is left of it.

  * `complete_iff`: exactly when a required field that applies has a value;
  * `white_space_is_accepted`: a draft that is accepted without one.
-/
import Helpdesk.Tickets.Revalidation

namespace Helpdesk.Tickets

open Helpdesk.Python Json

variable {records : List FormFieldRecord} {supplied : List CustomFieldInput}
  {complete : Bool} {raw r : List (String × Json)} {group : FieldGroup}

/-- The condition of a field applies to the supplied values. -/
def Applies (raw : List (String × Json)) (group : FieldGroup) : Prop :=
  conditionApplies group.field.condition raw = .ok true

/-- The condition of a field is a rule, and does not apply. -/
def Inapplicable (raw : List (String × Json)) (group : FieldGroup) : Prop :=
  conditionApplies group.field.condition raw = .ok false

/-- Every required field that applies has a value that is not blank, and no field that does
    not apply has an entry. -/
structure Complete (records : List FormFieldRecord) (raw r : List (String × Json)) : Prop where
  required : ∀ group ∈ grouped records, group.field.required = true → Applies raw group →
    ∃ value, lookup group.code r = some value ∧ isBlank value = false
  inapplicable : ∀ group ∈ grouped records, Inapplicable raw group → lookup group.code r = none

/-- The entry of a field of an accepted draft. -/
theorem lookup_of_accepted (h : validateAndNormalize records supplied complete = .ok r)
    (hgroup : group ∈ grouped records) :
    Accepted complete (supply supplied).raw group (lookup group.code r) := by
  obtain ⟨_, _, haccepted, rfl⟩ := validateAndNormalize_ok.mp h
  obtain ⟨entry, hentry⟩ := haccepted group hgroup
  rw [lookup_itemsOf (grouped_nodup records) hgroup, hentry.entryOf]
  exact hentry

/-- A field that does not apply has no entry. -/
theorem Accepted.entry_none {entry : Option Json} (h : Accepted complete raw group entry)
    (hnot : Inapplicable raw group) : entry = none := by
  unfold Inapplicable at hnot
  cases h with
  | inapplicable => rfl
  | blank happlies => rw [happlies] at hnot; cases hnot
  | value happlies => rw [happlies] at hnot; cases hnot

/-- **A required field that applies** has a value, unless it was given white space. -/
theorem Accepted.required_iff {entry : Option Json} (h : Accepted true raw group entry)
    (hrequired : group.field.required = true) (happlies : Applies raw group) :
    (∃ value, entry = some value ∧ isBlank value = false) ↔
      ¬ WhiteSpace group (getD raw group.code) := by
  unfold Applies at happlies
  cases h with
  | inapplicable hnot => rw [hnot] at happlies; cases happlies
  | blank _ _ hoptional =>
      rw [hrequired] at hoptional
      cases hoptional
  | @value v _ hgiven hnormal _ =>
      have hblank := blank_iff hnormal hgiven
      constructor
      · rintro ⟨value, hvalue, hfull⟩ hspace
        obtain rfl := Option.some.inj hvalue
        rw [hblank.mpr hspace] at hfull
        cases hfull
      · intro hspace
        exact ⟨v, rfl, Bool.eq_false_iff.mpr fun hv => hspace (hblank.mp hv)⟩

/-- **A draft that is accepted as complete is complete** if and only if no required field that
    applies was given a text of white space. -/
theorem complete_iff (h : validateAndNormalize records supplied true = .ok r) :
    Complete records (supply supplied).raw r ↔
      ∀ group ∈ grouped records, group.field.required = true →
        Applies (supply supplied).raw group →
          ¬ WhiteSpace group (getD (supply supplied).raw group.code) := by
  constructor
  · intro hcomplete group hgroup hrequired happlies
    have haccepted := lookup_of_accepted h hgroup
    exact (haccepted.required_iff hrequired happlies).mp
      (hcomplete.required group hgroup hrequired happlies)
  · intro hspace
    refine ⟨fun group hgroup hrequired happlies => ?_, fun group hgroup hnot => ?_⟩
    · exact ((lookup_of_accepted h hgroup).required_iff hrequired happlies).mpr
        (hspace group hgroup hrequired happlies)
    · exact (lookup_of_accepted h hgroup).entry_none hnot

/-- A text that every draft must have. -/
def subjectForm : List FormFieldRecord :=
  [{ fieldRecord "subject" .text (.dict []) with required := true }]

def subjectDraft (subject : String) : List CustomFieldInput := [⟨"subject", .str subject⟩]

theorem complete_iff_subject :
    ∃ r, validateAndNormalize subjectForm (subjectDraft "Broken  screen") true = .ok r ∧
      Complete subjectForm (supply (subjectDraft "Broken  screen")).raw r := by
  have haccepted : (validateAndNormalize subjectForm (subjectDraft "Broken  screen") true).isOk =
      true := by decide +kernel
  cases hr : validateAndNormalize subjectForm (subjectDraft "Broken  screen") true with
  | error e => rw [hr] at haccepted; cases haccepted
  | ok r =>
      refine ⟨r, rfl, (complete_iff hr).mpr ?_⟩
      rintro group hgroup - - ⟨_, s, hs, hspace⟩
      obtain rfl := List.mem_singleton.mp hgroup
      obtain rfl : "Broken  screen" = s := Json.str.inj hs
      exact absurd (hspace 'B' (by decide +kernel)) (by decide)

/-- What is kept of three blanks is blank. -/
def keepsBlank : Bool :=
  match validateAndNormalize subjectForm (subjectDraft "   ") true with
  | .ok r => (lookup "subject" r).all isBlank
  | .error _ => false

/-- Three blanks are a subject, and the subject that is kept is empty. -/
theorem white_space_is_accepted :
    ¬ ∀ records supplied r, validateAndNormalize records supplied true = .ok r →
      Complete records (supply supplied).raw r := by
  intro hclaim
  have hkept : keepsBlank = true := by decide +kernel
  unfold keepsBlank at hkept
  split at hkept
  · next r hr =>
      obtain ⟨value, hvalue, hfull⟩ := (hclaim _ _ r hr).required
        ⟨{ fieldRecord "subject" .text (.dict []) with required := true }, []⟩
        (List.mem_singleton_self _) rfl rfl
      have hlookup : lookup "subject" r = some value := hvalue
      rw [hlookup] at hkept
      rw [show isBlank value = true from hkept] at hfull
      cases hfull
  · cases hkept

end Helpdesk.Tickets
