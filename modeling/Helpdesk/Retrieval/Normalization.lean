/-
  File:      Helpdesk/Retrieval/Normalization.lean
  Subject:   `normalize_query` (apps/api/app/retrieval/normalization.py).

  The interpreter's Unicode tables are a parameter; `Documented` lists what the
  development uses of them.

  * `bare_words`: a text is normalized word by word;
  * `normal_join`: two texts that stay as they are stay so together, behind a space.
-/
import Helpdesk.Python.Words

namespace Helpdesk.Retrieval

open Helpdesk.Python

/-! ## 1. The tables -/

/-- What `unicodedata` and `str.casefold` say. -/
structure Unicode where
  /-- `unicodedata.normalize("NFKC", value)` -/
  nfkc : List Char → List Char
  /-- category `Cc` or `Cf` -/
  control : Char → Bool
  /-- one character of `str.casefold` -/
  casefold : Char → List Char

/-- The ASCII letters, digits and marks which queries are put together with. -/
def isPlain (c : Char) : Bool :=
  ('A' ≤ c && c ≤ 'Z') || ('a' ≤ c && c ≤ 'z') || ('0' ≤ c && c ≤ '9') || c = '-' || c = '\x22'

/-- **What the tables are documented to say**: compositions do not reach over white
    space or a quote, white space stays white space, and decimal digits become
    decimal digits. -/
structure Unicode.Documented (u : Unicode) : Prop where
  nfkc_nil : u.nfkc [] = []
  nfkc_space : ∀ front w back, isSpace w = true →
    u.nfkc (front ++ w :: back) = u.nfkc front ++ (u.nfkc [w] ++ u.nfkc back)
  nfkc_quote : ∀ front back, u.nfkc (front ++ '\x22' :: back) = u.nfkc front ++ '\x22' :: u.nfkc back
  space : ∀ w, isSpace w = true → u.nfkc [w] ≠ [] ∧ Blank (u.nfkc [w])
  /-- plain characters and decimal digits neither compose nor move -/
  nfkc_plain : ∀ text, (∀ c ∈ text, isPlain c = true ∨ (decimalDigit? c).isSome = true) →
    u.nfkc text = text.flatMap fun c => u.nfkc [c]
  plain : ∀ c, isPlain c = true → u.nfkc [c] = [c]
  digit : ∀ c, (decimalDigit? c).isSome = true →
    ∃ d, u.nfkc [c] = [d] ∧ (decimalDigit? d).isSome = true
  control_plain : ∀ c, isPlain c = true ∨ (decimalDigit? c).isSome = true → u.control c = false
  casefold_upper : ∀ c, 'A' ≤ c ∧ c ≤ 'Z' → u.casefold c = [lowerChar c]
  casefold_plain : ∀ c, isPlain c = true → ¬('A' ≤ c ∧ c ≤ 'Z') → u.casefold c = [c]
  casefold_digit : ∀ c, (decimalDigit? c).isSome = true → u.casefold c = [c]
  casefold_space : u.casefold ' ' = [' ']

/-! ## 2. Queries -/

/-- `MAX_QUERY_CHARACTERS` -/
def maxQueryCharacters : Nat := 500

/-- The words of the text without control characters, before the case is folded. -/
def bare (u : Unicode) (text : List Char) : List (List Char) :=
  words ((u.nfkc text).filter fun c => !u.control c || isSpace c)

/-- The normalized text. -/
def normalizedText (u : Unicode) (text : List Char) : List Char :=
  ([' '].intercalate (bare u text)).flatMap u.casefold

/-- `normalize_query` -/
def normalizeQuery (u : Unicode) (value : String) : Except String String :=
  let normalized := normalizedText u value.toList
  if normalized = [] then .error "Retrieval query is empty"
  else if maxQueryCharacters < normalized.length then
    .error "Retrieval query exceeds the character limit"
  else .ok (String.ofList normalized)

/-- A text that `normalize_query` returns unchanged. -/
def Normal (u : Unicode) (value : String) : Prop := normalizeQuery u value = .ok value

theorem normalizeQuery_eq_ok {u : Unicode} {value normalized : String} :
    normalizeQuery u value = .ok normalized ↔
      normalized.toList = normalizedText u value.toList ∧ normalized.toList ≠ [] ∧
        normalized.length ≤ maxQueryCharacters := by
  unfold normalizeQuery
  dsimp only
  split_ifs with hnil hlong
  · constructor
    · intro h
      cases h
    · rintro ⟨htext, hne, -⟩
      exact absurd (htext.trans hnil) hne
  · constructor
    · intro h
      cases h
    · rintro ⟨htext, -, hle⟩
      rw [← htext, String.length_toList] at hlong
      omega
  · constructor
    · intro h
      obtain rfl := Except.ok.inj h
      rw [← String.length_toList, String.toList_ofList]
      exact ⟨rfl, hnil, Nat.le_of_not_lt hlong⟩
    · rintro ⟨htext, -, -⟩
      rw [← htext, String.ofList_toList]

section Words

variable {u : Unicode} {front back : List Char} {w : Char}

/-- White space separates what is normalized. -/
theorem bare_append (hu : u.Documented) (hw : isSpace w = true) :
    bare u (front ++ w :: back) = bare u front ++ bare u back := by
  obtain ⟨hne, hblank⟩ := hu.space w hw
  have hkeep : (u.nfkc [w]).filter (fun c => !u.control c || isSpace c) = u.nfkc [w] := by
    refine List.filter_eq_self.mpr fun c hc => ?_
    rw [hblank c hc, Bool.or_true]
  rw [bare, hu.nfkc_space _ _ _ hw, List.filter_append, List.filter_append, hkeep,
    ← List.append_assoc, words_append_sep hblank hne]
  rfl

/-- **A text is normalized word by word.** -/
theorem bare_words (hu : u.Documented) (text : List Char) :
    bare u text = (words text).flatMap (bare u) := by
  induction hn : text.length using Nat.strongRecOn generalizing text with
  | ind n ih =>
      by_cases hspace : ∃ w ∈ text, isSpace w = true
      · obtain ⟨w, hw, hisSpace⟩ := hspace
        obtain ⟨front, back, rfl⟩ := List.append_of_mem hw
        rw [List.length_append, List.length_cons] at hn
        rw [bare_append hu hisSpace, words_append_cons hisSpace, List.flatMap_append,
          ← ih front.length (by omega) front rfl, ← ih back.length (by omega) back rfl]
      · by_cases hnil : text = []
        · rw [hnil, bare, hu.nfkc_nil]
          rfl
        · have hword : words text = [text] := by
            have hone : words ([' '].intercalate [text]) = [text] := by
              refine words_intercalate fun word hword => ?_
              obtain rfl := List.mem_singleton.mp hword
              refine ⟨hnil, fun c hc => Bool.eq_false_iff.mpr fun htrue => hspace ⟨c, hc, htrue⟩⟩
            rwa [List.intercalate_singleton] at hone
          rw [hword, List.flatMap_singleton]

end Words

/-! ## 3. Queries that stay as they are -/

variable {u : Unicode}

theorem normal_iff {value : String} :
    Normal u value ↔ normalizedText u value.toList = value.toList ∧ value.toList ≠ [] ∧
      value.length ≤ maxQueryCharacters := by
  rw [Normal, normalizeQuery_eq_ok, eq_comm]

theorem normalizedText_eq (hu : u.Documented) (text : List Char) :
    normalizedText u text = [' '].intercalate ((bare u text).map (List.flatMap u.casefold)) := by
  rw [normalizedText]
  induction bare u text with
  | nil => rfl
  | cons first rest ih =>
      cases rest with
      | nil => simp
      | cons second rest =>
          rw [List.intercalate_cons_cons, List.flatMap_append, List.flatMap_append, ih,
            List.flatMap_singleton, hu.casefold_space]
          simp only [List.map_cons, List.intercalate_cons_cons]

/-- A normalized text with words on both sides of a space. -/
theorem normalizedText_append (hu : u.Documented) {front back : List Char}
    (hfront : bare u front ≠ []) (hback : bare u back ≠ []) :
    normalizedText u (front ++ ' ' :: back) =
      normalizedText u front ++ ' ' :: normalizedText u back := by
  rw [normalizedText_eq hu, normalizedText_eq hu, normalizedText_eq hu, bare_append hu rfl,
    List.map_append]
  have hfront' : (bare u front).map (List.flatMap u.casefold) ≠ [] := by simpa using hfront
  have hback' : (bare u back).map (List.flatMap u.casefold) ≠ [] := by simpa using hback
  generalize (bare u front).map (List.flatMap u.casefold) = fronts at *
  generalize (bare u back).map (List.flatMap u.casefold) = backs at *
  induction fronts with
  | nil => exact absurd rfl hfront'
  | cons first rest ih =>
      cases rest with
      | nil =>
          rw [List.singleton_append, List.intercalate_cons_of_ne_nil hback',
            List.intercalate_singleton, List.append_assoc]
          rfl
      | cons second rest =>
          rw [List.cons_append, List.cons_append, List.intercalate_cons_cons, ← List.cons_append,
            ih (List.cons_ne_nil _ _), List.intercalate_cons_cons]
          simp only [List.append_assoc]

theorem bare_ne_nil {text : List Char} (h : normalizedText u text ≠ []) : bare u text ≠ [] := by
  intro hnil
  rw [normalizedText, hnil] at h
  exact h rfl

/-- **Two texts that stay as they are stay so together.** -/
theorem normal_join (hu : u.Documented) {front back : String} (hfront : Normal u front) :
    Normal u (front ++ " " ++ back) ↔
      Normal u back ∧ (front ++ " " ++ back).length ≤ maxQueryCharacters := by
  obtain ⟨htext, hne, -⟩ := normal_iff.mp hfront
  have hbare : bare u front.toList ≠ [] := bare_ne_nil (by rw [htext]; exact hne)
  have htoList : (front ++ " " ++ back).toList = front.toList ++ ' ' :: back.toList := by simp
  have hlength : back.length ≤ (front ++ " " ++ back).length := by
    simp only [String.length_append]
    omega
  rw [normal_iff, normal_iff, htoList]
  constructor
  · intro h
    obtain ⟨hboth, -, hwithin⟩ := h
    have hback : bare u back.toList ≠ [] := by
      intro hnil
      rw [normalizedText, bare_append hu rfl, hnil, List.append_nil, ← normalizedText, htext] at hboth
      exact absurd (congrArg List.length hboth) (by simp)
    rw [normalizedText_append hu hbare hback, htext] at hboth
    have hsame := (List.cons.inj (List.append_cancel_left hboth)).2
    refine ⟨⟨hsame, fun hnil => ?_, hlength.trans hwithin⟩, hwithin⟩
    rw [hnil, bare, hu.nfkc_nil] at hback
    exact hback rfl
  · intro h
    obtain ⟨⟨hsame, hback, -⟩, hwithin⟩ := h
    rw [normalizedText_append hu hbare (bare_ne_nil (by rw [hsame]; exact hback)), htext, hsame]
    exact ⟨rfl, by simp, hwithin⟩

/-- A text of plain characters without capitals stays as it is. -/
theorem normal_plain (hu : u.Documented) {text : List Char} (hne : text ≠ [])
    (hplain : ∀ c ∈ text, isPlain c = true ∧ ¬('A' ≤ c ∧ c ≤ 'Z') ∧ isSpace c = false)
    (hwithin : text.length ≤ maxQueryCharacters) : Normal u (String.ofList text) := by
  have hnfkc : u.nfkc text = text := by
    rw [hu.nfkc_plain text fun c hc => .inl (hplain c hc).1]
    calc text.flatMap (fun c => u.nfkc [c]) = text.flatMap fun c => [c] :=
          List.flatMap_congr fun c hc => hu.plain c (hplain c hc).1
      _ = text := List.flatMap_singleton' text
  have hkeep : text.filter (fun c => !u.control c || isSpace c) = text := by
    refine List.filter_eq_self.mpr fun c hc => ?_
    rw [hu.control_plain c (.inl (hplain c hc).1)]
    rfl
  have hwords : words text = [text] := by
    have hone : words ([' '].intercalate [text]) = [text] := by
      refine words_intercalate fun word hword => ?_
      obtain rfl := List.mem_singleton.mp hword
      exact ⟨hne, fun c hc => (hplain c hc).2.2⟩
    rwa [List.intercalate_singleton] at hone
  have hcase : text.flatMap u.casefold = text := by
    calc text.flatMap u.casefold = text.flatMap fun c => [c] :=
          List.flatMap_congr fun c hc => hu.casefold_plain c (hplain c hc).1 (hplain c hc).2.1
      _ = text := List.flatMap_singleton' text
  rw [normal_iff, String.toList_ofList]
  refine ⟨?_, hne, by rwa [← String.length_toList, String.toList_ofList]⟩
  rw [normalizedText, bare, hnfkc, hkeep, hwords, List.intercalate_singleton, hcase]

theorem normal_or (hu : u.Documented) : Normal u "or" :=
  normal_plain hu (List.cons_ne_nil 'o' ['r']) (by simp [isPlain, isSpace]) (by decide)

end Helpdesk.Retrieval
