/-
  File:      Helpdesk/Retrieval/Identifiers.lean
  Subject:   The identifier grammar of `fusion.py`: what `_IDENTIFIER` finds in a text
             and what the text on either side of it can change.

  * `identifiers_append`: a text behind a space takes no identifier away;
  * `mem_findIdentifiers_token`: an identifier between white space is found;
  * `isIdentifier_of_mem`: what is found has the form of the pattern.
-/
import Helpdesk.Python.Words
import Helpdesk.Retrieval.Fusion
import Mathlib.Data.List.Find

namespace Helpdesk.Retrieval

open Helpdesk.Python

variable {p : Char → Bool} {c w : Char} {text rest m : List Char} {n low high : Nat}

/-! ## 1. Characters -/

theorem isDigit_congr {c : Char} (h : (digitZeros.find? fun z => z ≤ c.toNat && c.toNat ≤ z + 9) = none) :
    isDigit c = false := by
  rw [isDigit, decimalDigit?, h]
  rfl

/-- **White space is neither letter nor digit.** -/
theorem isSpace_class (h : isSpace c = true) :
    isUpperAscii c = false ∧ isWordChar c = false ∧ isDigit c = false := by
  have hcodes := toNat_mem_of_isSpace h
  have hnone : ∀ n ∈ List.range' 0x9 5 ++ List.range' 0x1c 5 ++ List.range' 0x2000 11 ++
      [0x85, 0xa0, 0x1680, 0x2028, 0x2029, 0x202f, 0x205f, 0x3000],
      (digitZeros.find? fun z => z ≤ n && n ≤ z + 9) = none ∧ ¬(65 ≤ n ∧ n ≤ 90) ∧
        ¬(48 ≤ n ∧ n ≤ 57) := by
    decide
  obtain ⟨hdigit, hupper, hnumber⟩ := hnone _ hcodes
  have hupper' : isUpperAscii c = false := by
    rw [Bool.eq_false_iff]
    intro htrue
    rw [isUpperAscii, Bool.and_eq_true, decide_eq_true_iff, decide_eq_true_iff] at htrue
    exact hupper htrue
  refine ⟨hupper', ?_, isDigit_congr hdigit⟩
  rw [isWordChar, hupper', Bool.false_or, Bool.eq_false_iff]
  intro htrue
  rw [Bool.and_eq_true, decide_eq_true_iff, decide_eq_true_iff] at htrue
  exact hnumber htrue

/-- A letter is no digit. -/
theorem isUpperAscii_class (h : isUpperAscii c = true) :
    isDigit c = false ∧ isSpace c = false ∧ c ≠ '-' ∧ c ≠ '_' := by
  have hbounds := h
  rw [isUpperAscii, Bool.and_eq_true, decide_eq_true_iff, decide_eq_true_iff] at hbounds
  have hcodes : c.toNat ∈ List.range' 65 26 := by
    have hlow : 65 ≤ c.toNat := hbounds.1
    have hhigh : c.toNat ≤ 90 := hbounds.2
    rw [List.mem_range'_1]
    omega
  have hnone : ∀ n ∈ List.range' 65 26,
      (digitZeros.find? fun z => z ≤ n && n ≤ z + 9) = none ∧ n ≠ 45 ∧ n ≠ 95 := by decide
  obtain ⟨hdigit, hhyphen, hunderscore⟩ := hnone _ hcodes
  refine ⟨isDigit_congr hdigit, ?_, fun heq => hhyphen (by rw [heq]; rfl),
    fun heq => hunderscore (by rw [heq]; rfl)⟩
  rw [Bool.eq_false_iff]
  intro hspace
  rw [(isSpace_class hspace).1] at h
  cases h

/-! ## 2. Repetitions -/

theorem mem_repeats : n ∈ repeats p low high text ↔
    low ≤ n ∧ n ≤ high ∧ n ≤ (text.takeWhile p).length := by
  simp only [repeats, List.mem_reverse, List.mem_filter, List.mem_range, decide_eq_true_eq]
  omega

theorem repeats_congr {text' : List Char} (h : text.takeWhile p = text'.takeWhile p) :
    repeats p low high text = repeats p low high text' := by
  unfold repeats
  rw [h]

/-- A character the class does not take ends the repetition. -/
theorem takeWhile_append_stop (hc : p c = false) :
    (text ++ c :: rest).takeWhile p = text.takeWhile p := by
  induction text with
  | nil => exact List.takeWhile_cons_of_neg (by rw [hc]; exact Bool.false_ne_true)
  | cons d text ih =>
      rw [List.cons_append, List.takeWhile_cons, List.takeWhile_cons, ih]

theorem length_takeWhile_le : (text.takeWhile p).length ≤ text.length :=
  (List.takeWhile_prefix p).length_le

/-- What a repetition took is of the class. -/
theorem all_take_of_le (h : n ≤ (text.takeWhile p).length) : ∀ d ∈ text.take n, p d = true := by
  intro d hd
  have htaken : text.take n <+: text.takeWhile p := by
    refine List.prefix_of_prefix_length_le (List.take_prefix n text) (List.takeWhile_prefix p) ?_
    exact (List.length_take_le n text).trans h
  exact List.mem_takeWhile_imp (htaken.subset hd)

/-! ## 3. The form of an identifier -/

/-- Letters, a separator, digits. -/
def Separated (separators m : List Char) : Prop :=
  ∃ letters separator digits, m = letters ++ separator :: digits ∧
    (∀ d ∈ letters, isUpperAscii d = true) ∧ 2 ≤ letters.length ∧ letters.length ≤ 12 ∧
    separator ∈ separators ∧
    (∀ d ∈ digits, isDigit d = true) ∧ 2 ≤ digits.length ∧ digits.length ≤ 12

/-- Letters, then digits. -/
def Joined (m : List Char) : Prop :=
  ∃ letters digits, m = letters ++ digits ∧
    (∀ d ∈ letters, isUpperAscii d = true) ∧ 3 ≤ letters.length ∧ letters.length ≤ 12 ∧
    (∀ d ∈ digits, isDigit d = true) ∧ 3 ≤ digits.length ∧ digits.length ≤ 12

/-- What the pattern takes, with these separators. -/
def IsIdentifier (separators m : List Char) : Prop := Separated separators m ∨ Joined m

theorem mem_identifierLengths (h : n ∈ identifierLengths text) :
    n ≤ text.length ∧ 0 < n ∧ IsIdentifier ['-', '_', ' '] (text.take n) := by
  rw [identifierLengths, List.mem_append, List.mem_flatMap, List.mem_flatMap] at h
  rcases h with ⟨letters, hletters, h⟩ | ⟨letters, hletters, h⟩
  · obtain ⟨hlow, hhigh, htake⟩ := mem_repeats.mp hletters
    cases hdrop : text.drop letters with
    | nil =>
        rw [hdrop] at h
        cases h
    | cons c rest =>
        rw [hdrop] at h
        dsimp only at h
        split_ifs at h with hc
        · obtain ⟨digits, hdigits, rfl⟩ := List.mem_map.mp h
          obtain ⟨hdlow, hdhigh, hdtake⟩ := mem_repeats.mp hdigits
          have hlength : (text.drop letters).length = rest.length + 1 := by rw [hdrop]; rfl
          rw [List.length_drop] at hlength
          have hdle := hdtake.trans length_takeWhile_le
          have hle := htake.trans length_takeWhile_le
          refine ⟨by omega, by omega, .inl ⟨text.take letters, c, rest.take digits, ?_,
            all_take_of_le htake, ?_, ?_, ?_, all_take_of_le hdtake, ?_, ?_⟩⟩
          · have hsplit : text = text.take letters ++ c :: rest := by
              rw [← hdrop, List.take_append_drop]
            have hlen : (text.take letters).length = letters := List.length_take_of_le hle
            conv_lhs => rw [hsplit]
            rw [show letters + 1 + digits = (text.take letters).length + (digits + 1) by omega,
              List.take_append, List.take_of_length_le (by omega)]
            simp
          · rw [List.length_take_of_le hle]; exact hlow
          · rw [List.length_take_of_le hle]; exact hhigh
          · simpa using hc
          · rw [List.length_take_of_le hdle]; exact hdlow
          · rw [List.length_take_of_le hdle]; exact hdhigh
        · cases h
  · obtain ⟨hlow, hhigh, htake⟩ := mem_repeats.mp hletters
    obtain ⟨digits, hdigits, rfl⟩ := List.mem_map.mp h
    obtain ⟨hdlow, hdhigh, hdtake⟩ := mem_repeats.mp hdigits
    have hdle := hdtake.trans length_takeWhile_le
    have hle := htake.trans length_takeWhile_le
    rw [List.length_drop] at hdle
    refine ⟨by omega, by omega, .inr ⟨text.take letters, (text.drop letters).take digits, ?_,
      all_take_of_le htake, ?_, ?_, all_take_of_le hdtake, ?_, ?_⟩⟩
    · rw [List.take_add]
    · rw [List.length_take_of_le hle]; exact hlow
    · rw [List.length_take_of_le hle]; exact hhigh
    · rw [List.length_take_of_le (by rw [List.length_drop]; exact hdle)]; exact hdlow
    · rw [List.length_take_of_le (by rw [List.length_drop]; exact hdle)]; exact hdhigh

theorem mem_of_identifierLength? (h : identifierLength? text = some n) :
    n ∈ identifierLengths text := List.mem_of_find?_eq_some h

/-! ## 4. Text behind a space -/

theorem space_class : isUpperAscii ' ' = false ∧ isWordChar ' ' = false ∧ isDigit ' ' = false :=
  isSpace_class (by decide)

/-- **A text that is not all letters takes what it takes without the text behind it.** -/
theorem identifierLengths_append (h : ∃ d ∈ text, isUpperAscii d = false) :
    identifierLengths (text ++ ' ' :: rest) = identifierLengths text := by
  obtain ⟨hupper, -, hdigit⟩ := space_class
  have hshort : (text.takeWhile isUpperAscii).length < text.length := by
    obtain ⟨d, hd, hfalse⟩ := h
    refine Nat.lt_of_le_of_ne length_takeWhile_le fun heq => ?_
    have hall := (List.takeWhile_prefix isUpperAscii).eq_of_length heq
    have htrue : isUpperAscii d = true := List.mem_takeWhile_imp (hall.symm ▸ hd)
    rw [hfalse] at htrue
    cases htrue
  have hrepeats : ∀ low high, repeats isUpperAscii low high (text ++ ' ' :: rest) =
      repeats isUpperAscii low high text := fun _ _ =>
    repeats_congr (takeWhile_append_stop hupper)
  have hdigits : ∀ (cs : List Char) low high, repeats isDigit low high (cs ++ ' ' :: rest) =
      repeats isDigit low high cs := fun _ _ _ => repeats_congr (takeWhile_append_stop hdigit)
  have hdrop : ∀ letters, letters ≤ (text.takeWhile isUpperAscii).length →
      ∃ c cs, text.drop letters = c :: cs ∧
        (text ++ ' ' :: rest).drop letters = c :: (cs ++ ' ' :: rest) := by
    intro letters hletters
    cases hcs : text.drop letters with
    | nil =>
        rw [List.drop_eq_nil_iff] at hcs
        omega
    | cons c cs =>
        refine ⟨c, cs, rfl, ?_⟩
        rw [List.drop_append_of_le_length (by omega), hcs]
        rfl
  unfold identifierLengths
  dsimp only
  rw [hrepeats, hrepeats]
  congr 1
  · refine List.flatMap_congr fun letters hletters => ?_
    obtain ⟨c, cs, htext, happend⟩ := hdrop letters (mem_repeats.mp hletters).2.2
    rw [htext, happend]
    dsimp only
    rw [hdigits]
  · refine List.flatMap_congr fun letters hletters => ?_
    obtain ⟨c, cs, htext, happend⟩ := hdrop letters (mem_repeats.mp hletters).2.2
    rw [htext, happend, ← List.cons_append, hdigits]

theorem identifierLength?_append (h : ∃ d ∈ text, isUpperAscii d = false) :
    identifierLength? (text ++ ' ' :: rest) = identifierLength? text := by
  unfold identifierLength?
  rw [identifierLengths_append h]
  refine List.find?_congr fun n hn => ?_
  obtain ⟨hle, -, -⟩ := mem_identifierLengths hn
  congr 1
  rcases Nat.lt_or_eq_of_le hle with hlt | heq
  · rw [List.drop_append_of_le_length hle]
    cases hdrop : text.drop n with
    | nil =>
        rw [List.drop_eq_nil_iff] at hdrop
        omega
    | cons c cs => rfl
  · -- at the end of the text the space is no word character
    rw [heq, List.drop_append_of_le_length (le_refl _), List.drop_length, List.nil_append,
      List.head?_cons, List.head?_nil]
    exact space_class.2.1

/-- Letters alone are no identifier. -/
theorem identifierLengths_letters (h : ∀ d ∈ text, isUpperAscii d = true) :
    identifierLengths text = [] := by
  refine List.eq_nil_iff_forall_not_mem.mpr fun n hn => ?_
  obtain ⟨-, -, hform⟩ := mem_identifierLengths hn
  have hall : ∀ d ∈ text.take n, isUpperAscii d = true := fun d hd => h d (List.mem_of_mem_take hd)
  have hlast : ∃ d ∈ text.take n, isDigit d = true := by
    rcases hform with ⟨letters, separator, digits, hm, -, -, -, -, hdigits, hlow, -⟩ |
      ⟨letters, digits, hm, -, -, -, hdigits, hlow, -⟩
    · obtain ⟨d, hd⟩ := List.exists_mem_of_length_pos (by omega : 0 < digits.length)
      exact ⟨d, hm ▸ List.mem_append_right _ (List.mem_cons_of_mem _ hd), hdigits d hd⟩
    · obtain ⟨d, hd⟩ := List.exists_mem_of_length_pos (by omega : 0 < digits.length)
      exact ⟨d, hm ▸ List.mem_append_right _ hd, hdigits d hd⟩
  obtain ⟨d, hd, hdigit⟩ := hlast
  rw [(isUpperAscii_class (hall d hd)).1] at hdigit
  cases hdigit

/-- What `finditer` finds at the next character. -/
def nextLength? (previous : Option Char) (text : List Char) : Option Nat :=
  if previous.any isWordChar then none else identifierLength? text

theorem findIdentifiers_cons (fuel : Nat) (previous : Option Char) (c : Char) (cs : List Char) :
    findIdentifiers (fuel + 1) previous (c :: cs) =
      match nextLength? previous (c :: cs) with
      | some n =>
          (c :: cs).take n ::
            findIdentifiers fuel ((c :: cs).take n).getLast? ((c :: cs).drop n)
      | none => findIdentifiers fuel (some c) cs := rfl

theorem of_nextLength? {previous : Option Char} (h : nextLength? previous text = some n) :
    n ∈ identifierLengths text := by
  unfold nextLength? at h
  split_ifs at h
  exact mem_of_identifierLength? h

theorem findIdentifiers_letters (h : ∀ d ∈ text, isUpperAscii d = true) :
    ∀ (fuel : Nat) (previous : Option Char), findIdentifiers fuel previous text = [] := by
  induction text with
  | nil =>
      intro fuel previous
      cases fuel <;> rfl
  | cons c cs ih =>
      intro fuel previous
      cases fuel with
      | zero => rfl
      | succ fuel =>
          have hnone : nextLength? previous (c :: cs) = none := by
            unfold nextLength?
            split_ifs
            · rfl
            · rw [identifierLength?, identifierLengths_letters h]
              rfl
          rw [findIdentifiers_cons, hnone]
          exact ih (fun d hd => h d (List.mem_cons_of_mem c hd)) fuel (some c)

/-- **A text behind a space takes no identifier away.** -/
theorem mem_findIdentifiers_append : ∀ {fuel fuel' : Nat} {previous : Option Char}
    {text : List Char}, fuel ≤ fuel' → m ∈ findIdentifiers fuel previous text →
      m ∈ findIdentifiers fuel' previous (text ++ ' ' :: rest)
  | 0, _, _, _, _, h => nomatch h
  | _ + 1, _, _, [], _, h => nomatch h
  | fuel + 1, fuel' + 1, previous, c :: cs, hfuel, h => by
      by_cases hletters : ∀ d ∈ c :: cs, isUpperAscii d = true
      · rw [findIdentifiers_letters hletters] at h
        cases h
      · have hother : ∃ d ∈ c :: cs, isUpperAscii d = false := by
          simpa only [not_forall, Bool.not_eq_true, exists_prop] using hletters
        have hnext : nextLength? previous (c :: (cs ++ ' ' :: rest)) =
            nextLength? previous (c :: cs) := by
          unfold nextLength?
          rw [← List.cons_append, identifierLength?_append hother]
        rw [List.cons_append, findIdentifiers_cons, hnext]
        rw [findIdentifiers_cons] at h
        cases hn : nextLength? previous (c :: cs) with
        | none =>
            rw [hn] at h
            exact mem_findIdentifiers_append (Nat.le_of_succ_le_succ hfuel) h
        | some n =>
            rw [hn] at h
            obtain ⟨hle, -, -⟩ := mem_identifierLengths (of_nextLength? hn)
            dsimp only at h ⊢
            rw [← List.cons_append, List.take_append_of_le_length hle,
              List.drop_append_of_le_length hle]
            rcases List.mem_cons.mp h with heq | h
            · exact heq ▸ List.mem_cons_self
            · exact List.mem_cons_of_mem _
                (mem_findIdentifiers_append (Nat.le_of_succ_le_succ hfuel) h)

theorem upperExpanded_space : upperExpanded ' ' = [' '] := by decide

/-- **The identifiers of a query are among those of the query with more behind it.** -/
theorem identifiers_append (query more : String) :
    identifiers query ⊆ identifiers (query ++ " " ++ more) := by
  intro code hcode
  obtain ⟨m, hm, rfl⟩ := List.mem_map.mp hcode
  refine List.mem_map.mpr ⟨m, ?_, rfl⟩
  have htext : (query ++ " " ++ more).toList.flatMap upperExpanded =
      query.toList.flatMap upperExpanded ++ ' ' :: more.toList.flatMap upperExpanded := by
    have hspace : " ".toList = [' '] := rfl
    rw [String.toList_append, String.toList_append, List.flatMap_append, List.flatMap_append,
      hspace, List.flatMap_singleton, upperExpanded_space, List.append_assoc]
    rfl
  rw [htext]
  refine mem_findIdentifiers_append ?_ hm
  rw [List.length_append]
  exact Nat.le_add_right _ _

/-! ## 5. Identifiers between white space -/

theorem findIdentifiers_mono : ∀ {fuel fuel' : Nat} {previous : Option Char} {text : List Char},
    fuel ≤ fuel' → m ∈ findIdentifiers fuel previous text → m ∈ findIdentifiers fuel' previous text
  | 0, _, _, _, _, h => nomatch h
  | _ + 1, _, _, [], _, h => nomatch h
  | fuel + 1, fuel' + 1, previous, c :: cs, hfuel, h => by
      rw [findIdentifiers_cons] at h ⊢
      cases hn : nextLength? previous (c :: cs) with
      | none =>
          rw [hn] at h
          exact findIdentifiers_mono (Nat.le_of_succ_le_succ hfuel) h
      | some n =>
          rw [hn] at h
          rcases List.mem_cons.mp h with heq | h
          · exact heq ▸ List.mem_cons_self
          · exact List.mem_cons_of_mem _ (findIdentifiers_mono (Nat.le_of_succ_le_succ hfuel) h)

/-- **No identifier reaches over white space that no digit follows.** -/
theorem length_le_of_boundary {front : List Char} (hspace : isSpace w = true)
    (hrest : ∀ d ∈ rest.head?, isDigit d = false)
    (h : n ∈ identifierLengths (front ++ w :: rest)) : n ≤ front.length := by
  obtain ⟨hupper, -, hdigit⟩ := isSpace_class hspace
  have hletters : ((front ++ w :: rest).takeWhile isUpperAscii).length ≤ front.length := by
    rw [takeWhile_append_stop hupper]
    exact length_takeWhile_le
  have hdigits : ∀ cs : List Char, ((cs ++ w :: rest).takeWhile isDigit).length ≤ cs.length := by
    intro cs
    rw [takeWhile_append_stop hdigit]
    exact length_takeWhile_le
  rw [identifierLengths, List.mem_append, List.mem_flatMap, List.mem_flatMap] at h
  rcases h with ⟨letters, hl, h⟩ | ⟨letters, hl, h⟩
  · have hle := (mem_repeats.mp hl).2.2.trans hletters
    rw [List.drop_append_of_le_length hle] at h
    cases hdrop : front.drop letters with
    | nil =>
        -- the white space would be the separator
        rw [hdrop] at h
        dsimp only [List.nil_append] at h
        split_ifs at h
        · obtain ⟨digits, hd, -⟩ := List.mem_map.mp h
          obtain ⟨hlow, -, htake⟩ := mem_repeats.mp hd
          cases rest with
          | nil =>
              rw [List.takeWhile_nil, List.length_nil] at htake
              omega
          | cons d rest =>
              rw [List.takeWhile_cons_of_neg (by rw [hrest d rfl]; exact Bool.false_ne_true),
                List.length_nil] at htake
              omega
        · cases h
    | cons c cs =>
        rw [hdrop] at h
        dsimp only [List.cons_append] at h
        have hlength : front.length - letters = cs.length + 1 := by
          rw [← List.length_drop, hdrop]
          rfl
        split_ifs at h
        · obtain ⟨digits, hd, rfl⟩ := List.mem_map.mp h
          have htake := (mem_repeats.mp hd).2.2.trans (hdigits cs)
          omega
        · cases h
  · have hle := (mem_repeats.mp hl).2.2.trans hletters
    rw [List.drop_append_of_le_length hle] at h
    obtain ⟨digits, hd, rfl⟩ := List.mem_map.mp h
    have htake := (mem_repeats.mp hd).2.2.trans (hdigits (front.drop letters))
    rw [List.length_drop] at htake
    omega

/-- **What is found behind white space is found whatever stands before it.** -/
theorem mem_findIdentifiers_prepend (hspace : isSpace w = true)
    (hrest : ∀ d ∈ rest.head?, isDigit d = false) {fuel : Nat}
    (h : m ∈ findIdentifiers fuel (some w) rest) : ∀ {fuel' : Nat} {previous : Option Char}
      {front : List Char}, front.length + 1 + fuel ≤ fuel' →
        m ∈ findIdentifiers fuel' previous (front ++ w :: rest)
  | 0, _, _, hfuel => by omega
  | fuel' + 1, previous, [], hfuel => by
      have hnone : nextLength? previous (w :: rest) = none := by
        unfold nextLength?
        split_ifs
        · rfl
        · rw [identifierLength?, List.find?_eq_none]
          intro n hn
          rw [← List.nil_append (w :: rest)] at hn
          have hle := length_le_of_boundary hspace hrest hn
          rw [List.length_nil] at hle
          have hpos := (mem_identifierLengths hn).2.1
          omega
      rw [List.nil_append, findIdentifiers_cons, hnone]
      exact findIdentifiers_mono (by rw [List.length_nil] at hfuel; omega) h
  | fuel' + 1, previous, c :: cs, hfuel => by
      rw [List.length_cons] at hfuel
      rw [List.cons_append, findIdentifiers_cons]
      cases hn : nextLength? previous (c :: (cs ++ w :: rest)) with
      | none => exact mem_findIdentifiers_prepend hspace hrest h (by omega)
      | some n =>
          have hle : n ≤ (c :: cs).length := length_le_of_boundary hspace hrest (of_nextLength? hn)
          have hpos := (mem_identifierLengths (of_nextLength? hn)).2.1
          dsimp only
          rw [← List.cons_append, List.drop_append_of_le_length hle]
          refine List.mem_cons_of_mem _ (mem_findIdentifiers_prepend hspace hrest h ?_)
          rw [List.length_drop, List.length_cons]
          omega

/-! ## 6. Codes -/

/-- What `_identifiers` makes of a match. -/
def folded (found : List Char) : List Char :=
  found.map fun c => if c = ' ' ∨ c = '_' then '-' else c

theorem identifiers_eq (value : String) :
    identifiers value = (findIdentifiers (value.toList.flatMap upperExpanded).length none
      (value.toList.flatMap upperExpanded)).map fun found => String.ofList (folded found) := rfl

theorem isDigit_class (h : isDigit c = true) :
    isUpperAscii c = false ∧ isSpace c = false ∧ c ≠ '-' ∧ c ≠ '_' ∧ c ≠ ' ' := by
  have hne : ∀ d : Char, isDigit d = false → c ≠ d := by
    rintro d hd rfl
    rw [hd] at h
    cases h
  refine ⟨?_, ?_, hne '-' (by decide), hne '_' (by decide), hne ' ' (by decide)⟩
  · rw [Bool.eq_false_iff]
    intro hupper
    rw [(isUpperAscii_class hupper).1] at h
    cases h
  · rw [Bool.eq_false_iff]
    intro hspace
    rw [(isSpace_class hspace).2.2] at h
    cases h

theorem folded_eq_self (h : ∀ d ∈ m, d ≠ ' ' ∧ d ≠ '_') : folded m = m := by
  have hid : folded m = m.map id := by
    refine List.map_congr_left fun d hd => if_neg ?_
    rw [not_or]
    exact h d hd
  rw [hid, List.map_id]

/-- **A code is an identifier whose separator is the hyphen.** -/
theorem isIdentifier_folded (h : IsIdentifier ['-', '_', ' '] m) : IsIdentifier ['-'] (folded m) := by
  have hletters : ∀ {letters : List Char}, (∀ d ∈ letters, isUpperAscii d = true) →
      folded letters = letters := by
    intro letters hall
    refine folded_eq_self fun d hd => ⟨?_, (isUpperAscii_class (hall d hd)).2.2.2⟩
    intro heq
    have hspace := (isUpperAscii_class (hall d hd)).2.1
    rw [heq] at hspace
    exact absurd hspace (by decide)
  have hdigits : ∀ {digits : List Char}, (∀ d ∈ digits, isDigit d = true) →
      folded digits = digits := by
    intro digits hall
    refine folded_eq_self fun d hd => ?_
    obtain ⟨-, -, -, hunderscore, hspace⟩ := isDigit_class (hall d hd)
    exact ⟨hspace, hunderscore⟩
  cases h with
  | inl h =>
      obtain ⟨letters, separator, digits, rfl, hl, hlow, hhigh, hseparator, hd, hdlow, hdhigh⟩ := h
      refine .inl ⟨letters, '-', digits, ?_, hl, hlow, hhigh, List.mem_singleton_self _, hd, hdlow,
        hdhigh⟩
      have hhyphen : folded [separator] = ['-'] := by
        simp only [List.mem_cons, List.not_mem_nil, or_false] at hseparator
        rcases hseparator with rfl | rfl | rfl <;> rfl
      rw [← List.singleton_append, folded, List.map_append, List.map_append]
      change folded letters ++ (folded [separator] ++ folded digits) = _
      rw [hletters hl, hhyphen, hdigits hd]
      rfl
  | inr h =>
      obtain ⟨letters, digits, rfl, hl, hlow, hhigh, hd, hdlow, hdhigh⟩ := h
      refine .inr ⟨letters, digits, ?_, hl, hlow, hhigh, hd, hdlow, hdhigh⟩
      rw [folded, List.map_append]
      change folded letters ++ folded digits = _
      rw [hletters hl, hdigits hd]

/-- A code is folded to itself. -/
theorem folded_code {code : List Char} (h : IsIdentifier ['-'] code) : folded code = code := by
  refine folded_eq_self fun d hd => ?_
  have hletter : isUpperAscii d = true → d ≠ ' ' ∧ d ≠ '_' := by
    intro hupper
    refine ⟨?_, (isUpperAscii_class hupper).2.2.2⟩
    rintro rfl
    cases hupper
  have hdigit : isDigit d = true → d ≠ ' ' ∧ d ≠ '_' := fun hdigit =>
    ⟨(isDigit_class hdigit).2.2.2.2, (isDigit_class hdigit).2.2.2.1⟩
  cases h with
  | inl h =>
      obtain ⟨letters, separator, digits, rfl, hl, -, -, hseparator, hd', -⟩ := h
      rcases List.mem_append.mp hd with hin | hin
      · exact hletter (hl d hin)
      · rcases List.mem_cons.mp hin with rfl | hin
        · obtain rfl := List.mem_singleton.mp hseparator
          exact ⟨by decide, by decide⟩
        · exact hdigit (hd' d hin)
  | inr h =>
      obtain ⟨letters, digits, rfl, hl, -, -, hd', -⟩ := h
      rcases List.mem_append.mp hd with hin | hin
      · exact hletter (hl d hin)
      · exact hdigit (hd' d hin)

/-- What is found has the form of the pattern. -/
theorem isIdentifier_of_mem : ∀ {fuel : Nat} {previous : Option Char} {text : List Char},
    m ∈ findIdentifiers fuel previous text → IsIdentifier ['-', '_', ' '] m
  | 0, _, _, h => nomatch h
  | _ + 1, _, [], h => nomatch h
  | fuel + 1, previous, c :: cs, h => by
      rw [findIdentifiers_cons] at h
      cases hn : nextLength? previous (c :: cs) with
      | none =>
          rw [hn] at h
          exact isIdentifier_of_mem h
      | some n =>
          rw [hn] at h
          rcases List.mem_cons.mp h with heq | h
          · exact heq ▸ (mem_identifierLengths (of_nextLength? hn)).2.2
          · exact isIdentifier_of_mem h

theorem isCode_of_mem_identifiers {value code : String} (h : code ∈ identifiers value) :
    IsIdentifier ['-'] code.toList := by
  rw [identifiers_eq] at h
  obtain ⟨found, hfound, rfl⟩ := List.mem_map.mp h
  rw [String.toList_ofList]
  exact isIdentifier_folded (isIdentifier_of_mem hfound)

/-- The greedy repetition comes first. -/
theorem repeats_eq_cons {taken : List Char} (h : text.takeWhile p = taken) (hlow : low ≤ taken.length)
    (hhigh : taken.length ≤ high) : ∃ shorter, repeats p low high text = taken.length :: shorter := by
  refine ⟨((List.range taken.length).filter (low ≤ ·)).reverse, ?_⟩
  rw [repeats, h, Nat.min_eq_right hhigh, List.range_succ, List.filter_append, List.filter_cons_of_pos (by simpa using hlow),
    List.filter_nil, List.reverse_append]
  rfl

theorem takeWhile_append_all {front : List Char} (hfront : ∀ d ∈ front, p d = true)
    (hrest : ∀ d ∈ rest.head?, p d = false) : (front ++ rest).takeWhile p = front := by
  rw [List.takeWhile_append_of_pos hfront]
  cases rest with
  | nil => rw [List.takeWhile_nil, List.append_nil]
  | cons d rest =>
      rw [List.takeWhile_cons_of_neg (by rw [hrest d rfl]; exact Bool.false_ne_true),
        List.append_nil]

theorem head?_append_of_nil {front lengths : List Nat} (hfront : front = [])
    (h : lengths.head? = some n) : (front ++ lengths).head? = some n := by
  rw [hfront]
  exact h

/-- **A code before white space is taken as a whole.** -/
theorem identifierLength?_code {code back : List Char} (h : IsIdentifier ['-'] code)
    (hback : ∀ d ∈ back.head?, isSpace d = true) :
    identifierLength? (code ++ back) = some code.length := by
  have hdigitEnd : ∀ d ∈ back.head?, isDigit d = false := fun d hd => (isSpace_class (hback d hd)).2.2
  have hwordEnd : (back.head?.any isWordChar) = false := by
    cases back with
    | nil => rfl
    | cons d back => exact (isSpace_class (hback d rfl)).2.1
  have hfirst : (identifierLengths (code ++ back)).head? = some code.length →
      identifierLength? (code ++ back) = some code.length := by
    intro hhead
    obtain ⟨lengths, hlengths⟩ := List.head?_eq_some_iff.mp hhead
    rw [identifierLength?, hlengths, List.find?_cons_of_pos]
    rw [List.drop_left, hwordEnd]
    rfl
  cases h with
  | inl h =>
      obtain ⟨letters, separator, digits, rfl, hl, hlow, hhigh, hseparator, hd, hdlow, hdhigh⟩ := h
      obtain rfl := List.mem_singleton.mp hseparator
      have htext : letters ++ '-' :: digits ++ back = letters ++ '-' :: (digits ++ back) := by
        rw [List.append_assoc]
        rfl
      have htake : (letters ++ '-' :: (digits ++ back)).takeWhile isUpperAscii = letters := by
        refine takeWhile_append_all hl fun d hd => ?_
        obtain rfl := Option.some.inj hd
        rfl
      obtain ⟨shorter, hshorter⟩ := repeats_eq_cons htake hlow hhigh
      obtain ⟨fewer, hfewer⟩ := repeats_eq_cons (takeWhile_append_all hd hdigitEnd) hdlow hdhigh
      refine hfirst ?_
      rw [htext, identifierLengths, hshorter]
      rw [List.flatMap_cons, List.drop_left]
      dsimp only
      rw [if_pos (.inl rfl), hfewer, List.map_cons, List.cons_append, List.cons_append,
        List.head?_cons, List.length_append, List.length_cons,
        show letters.length + 1 + digits.length = letters.length + (digits.length + 1) by omega]
  | inr h =>
      obtain ⟨letters, digits, rfl, hl, hlow, hhigh, hd, hdlow, hdhigh⟩ := h
      have hdigitsHead : ∀ d ∈ (digits ++ back).head?, isDigit d = true := by
        intro d hin
        cases digits with
        | nil => cases hdlow
        | cons e digits =>
            obtain rfl := Option.some.inj hin
            exact hd _ List.mem_cons_self
      have htake : (letters ++ (digits ++ back)).takeWhile isUpperAscii = letters :=
        takeWhile_append_all hl fun d hin => (isDigit_class (hdigitsHead d hin)).1
      obtain ⟨shorter, hshorter⟩ := repeats_eq_cons htake hlow hhigh
      obtain ⟨fewer, hfewer⟩ := repeats_eq_cons (takeWhile_append_all hd hdigitEnd) hdlow hdhigh
      refine hfirst ?_
      rw [List.append_assoc, identifierLengths]
      refine head?_append_of_nil (List.flatMap_eq_nil_iff.mpr fun n hn => ?_) ?_
      · -- a letter or a digit follows, never a separator
        have hle := (mem_repeats.mp hn).2.2
        rw [htake] at hle
        rw [List.drop_append_of_le_length hle]
        cases hdrop : letters.drop n ++ (digits ++ back) with
        | nil => rfl
        | cons c cs =>
            refine if_neg ?_
            cases hletters : letters.drop n with
            | nil =>
                rw [hletters, List.nil_append] at hdrop
                obtain ⟨-, -, h1, h2, h3⟩ := isDigit_class (hdigitsHead c (by rw [hdrop]; rfl))
                simp [h1, h2, h3]
            | cons e es =>
                rw [hletters, List.cons_append] at hdrop
                obtain ⟨rfl, -⟩ := List.cons.inj hdrop
                have hin : e ∈ letters := List.mem_of_mem_drop (hletters ▸ List.mem_cons_self)
                obtain ⟨-, h1, h2, h3⟩ := isUpperAscii_class (hl e hin)
                have h4 : e ≠ ' ' := by
                  rintro rfl
                  exact absurd h1 (by decide)
                simp [h2, h3, h4]
      · rw [hshorter]
        rw [List.flatMap_cons, List.drop_left, hfewer, List.map_cons, List.cons_append, List.head?_cons,
          List.length_append]

/-- White space or nothing on either side. -/
def Between (front back : List Char) : Prop :=
  (∀ d ∈ front.getLast?, isSpace d = true) ∧ ∀ d ∈ back.head?, isSpace d = true

theorem head?_code {code : List Char} (back : List Char) (h : IsIdentifier ['-'] code) :
    ∃ d, (code ++ back).head? = some d ∧ isUpperAscii d = true := by
  have hhead : ∀ {letters tail : List Char}, (∀ d ∈ letters, isUpperAscii d = true) →
      2 ≤ letters.length → ∃ d, (letters ++ tail).head? = some d ∧ isUpperAscii d = true := by
    intro letters tail hl hlow
    cases letters with
    | nil => cases hlow
    | cons d letters => exact ⟨d, rfl, hl d List.mem_cons_self⟩
  cases h with
  | inl h =>
      obtain ⟨letters, separator, digits, rfl, hl, hlow, -⟩ := h
      rw [List.append_assoc]
      exact hhead hl hlow
  | inr h =>
      obtain ⟨letters, digits, rfl, hl, hlow, -⟩ := h
      rw [List.append_assoc]
      exact hhead hl (by omega)

/-- **A code between white space is found.** -/
theorem mem_findIdentifiers_token {front code back : List Char} (h : IsIdentifier ['-'] code)
    (hbetween : Between front back) {fuel : Nat} (hfuel : (front ++ (code ++ back)).length ≤ fuel) :
    code ∈ findIdentifiers fuel none (front ++ (code ++ back)) := by
  obtain ⟨first, hfirst, hupper⟩ := head?_code back h
  obtain ⟨cs, hcs⟩ := List.head?_eq_some_iff.mp hfirst
  have htake : (code ++ back).take code.length = code := List.take_left
  -- at its first character the scan takes the whole code
  have hfound : ∀ {fuel : Nat} {previous : Option Char}, previous.any isWordChar = false →
      code ∈ findIdentifiers (fuel + 1) previous (code ++ back) := by
    intro fuel previous hprevious
    have hnext : nextLength? previous (code ++ back) = some code.length := by
      rw [nextLength?, hprevious]
      exact identifierLength?_code h hbetween.2
    rw [hcs] at hnext htake ⊢
    rw [findIdentifiers_cons, hnext]
    dsimp only
    rw [htake]
    exact List.mem_cons_self
  have hpositive : 0 < (code ++ back).length := by rw [hcs]; exact Nat.succ_pos _
  rw [List.length_append] at hfuel
  cases hlast : front.getLast? with
  | none =>
      rw [List.getLast?_eq_none_iff] at hlast
      rw [hlast, List.nil_append]
      obtain ⟨n, rfl⟩ : ∃ n, fuel = n + 1 := ⟨fuel - 1, by omega⟩
      exact hfound rfl
  | some w =>
      have hspace := hbetween.1 w hlast
      obtain ⟨before, hbefore⟩ := List.getLast?_eq_some_iff.mp hlast
      rw [hbefore, List.append_assoc, List.singleton_append]
      rw [hbefore, List.length_append, List.length_singleton] at hfuel
      have hdigit : ∀ d ∈ (code ++ back).head?, isDigit d = false := by
        intro d hd
        rw [hfirst] at hd
        obtain rfl := Option.some.inj hd
        exact (isUpperAscii_class hupper).1
      have hlength : ∃ n, fuel = before.length + 1 + (n + 1) :=
        ⟨fuel - before.length - 2, by omega⟩
      obtain ⟨n, rfl⟩ := hlength
      have hcode : code ∈ findIdentifiers (n + 1) (some w) (code ++ back) :=
        hfound (isSpace_class hspace).2.1
      exact mem_findIdentifiers_prepend hspace hdigit hcode (le_refl _)

/-- A code alone is the one identifier of its text. -/
theorem findIdentifiers_code {code : List Char} (h : IsIdentifier ['-'] code) {fuel : Nat}
    (hfuel : code.length ≤ fuel) : findIdentifiers fuel none code = [code] := by
  have hnext : nextLength? none code = some code.length := by
    have hlength : identifierLength? (code ++ []) = some code.length :=
      identifierLength?_code h fun d hd => nomatch hd
    rw [List.append_nil] at hlength
    exact hlength
  obtain ⟨first, hfirst, -⟩ := head?_code [] h
  rw [List.append_nil] at hfirst
  obtain ⟨cs, rfl⟩ := List.head?_eq_some_iff.mp hfirst
  cases fuel with
  | zero => cases hfuel
  | succ fuel =>
      rw [findIdentifiers_cons, hnext]
      dsimp only
      rw [List.take_length, List.drop_length]
      cases fuel <;> rfl

end Helpdesk.Retrieval
