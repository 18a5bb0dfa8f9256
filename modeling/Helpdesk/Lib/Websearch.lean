/-
  File:      Helpdesk/Lib/Websearch.lean
  Subject:   The query language of web searches: words and quoted phrases are joined
             by "and", an unquoted `or` separates alternatives, a leading `-` negates,
             and what is open at the end of the text is closed there.

  The reader waits for an operand or for an operator. What an operand says about a
  text is a parameter; an operand of stop words alone says nothing and is dropped.

  * `matches_append`: behind a settled query an `or` begins a new alternative, so the
    longer query matches whatever the query matches;
  * `Settled`: a query that ends neither in an open quote nor in an operator that
    waits for its operand;
  * `matches_append_iff`: behind any other query a new phrase is joined to the last
    alternative, which costs what that alternative alone matched.
-/
import Mathlib.Data.List.Basic
import Mathlib.Data.List.TakeWhile
import Mathlib.Tactic.Common

namespace Helpdesk.Websearch

/-! ## 1. Queries -/

/-- `"` -/
def quote : Char := '\x22'

/-- How the reader classifies characters. -/
structure Alphabet where
  space : Char → Bool
  /-- punctuation that is passed over between operands -/
  ignored : Char → Bool
  /-- what makes an `or` part of a longer word -/
  wordChar : Char → Bool

/-- What the reader relies on. -/
structure Alphabet.Plain (A : Alphabet) : Prop where
  blank : A.space ' ' = true
  quote : A.space quote = false
  word : A.wordChar ' ' = false
  /-- the letters of an `or` are letters -/
  letter : ∀ c, c = 'o' ∨ c = 'O' ∨ c = 'r' ∨ c = 'R' →
    A.space c = false ∧ A.ignored c = false

variable {A : Alphabet}

/-- A character of an unquoted word. -/
def Alphabet.inWord (A : Alphabet) (c : Char) : Bool := !(A.space c || A.ignored c || c = quote)

structure Operand where
  quoted : Bool
  text : List Char
  deriving DecidableEq

structure Literal where
  negated : Bool
  operand : Operand
  deriving DecidableEq

inductive Waiting where
  | operand (negated : Bool)
  | operator
  deriving DecidableEq

/-- An unquoted `or` stands at the start of the text. -/
def orStarts (A : Alphabet) : List Char → Bool
  | o :: r :: rest =>
      (o = 'o' || o = 'O') && (r = 'r' || r = 'R') &&
        !(rest.head?.any fun c => c = '-' || c = '_' || A.wordChar c)
  | _ => false

/-- It is the operator, since something follows it. -/
def orFollows (A : Alphabet) (text : List Char) : Bool :=
  orStarts A text && (text.drop 3).any fun c => !A.space c

/-- The alternatives of a text, each the literals it joins; `current` holds those read
    since the last `or`, and `fuel` bounds the steps. -/
def alternatives (A : Alphabet) : Nat → Waiting → List Literal → List Char → List (List Literal)
  | 0, _, current, _ => [current]
  | _ + 1, .operand _, current, [] => [current]
  | fuel + 1, .operand negated, current, c :: rest =>
      if c = '-' then alternatives A fuel (.operand (!negated)) current rest
      else if c = quote then
        alternatives A fuel .operator
          (current ++ [⟨negated, true, rest.takeWhile (· ≠ quote)⟩])
          ((rest.dropWhile (· ≠ quote)).drop 1)
      else if A.space c || A.ignored c then
        alternatives A fuel (.operand negated) current rest
      else
        alternatives A fuel .operator
          (current ++ [⟨negated, false, (c :: rest).takeWhile A.inWord⟩])
          ((c :: rest).dropWhile A.inWord)
  | _ + 1, .operator, current, [] => [current]
  | fuel + 1, .operator, current, c :: rest =>
      if orFollows A (c :: rest) then
        current :: alternatives A fuel (.operand false) [] ((c :: rest).drop 2)
      else if A.space c then alternatives A fuel .operator current rest
      else alternatives A fuel (.operand false) current (c :: rest)

/-- More steps than this are never taken. -/
def bound (waiting : Waiting) (text : List Char) : Nat :=
  2 * text.length + match waiting with
    | .operand _ => 0
    | .operator => 1

/-- The alternatives of a query. -/
def parse (A : Alphabet) (query : List Char) : List (List Literal) :=
  alternatives A (bound (.operand false) query + 1) (.operand false) [] query

/-- **The bound is enough**: more fuel changes nothing. -/
theorem alternatives_fuel : ∀ {fuel fuel' : Nat} {waiting : Waiting} {current : List Literal}
    {text : List Char}, bound waiting text < fuel → bound waiting text < fuel' →
      alternatives A fuel waiting current text = alternatives A fuel' waiting current text
  | fuel + 1, fuel' + 1, .operand negated, current, [], _, _ => rfl
  | fuel + 1, fuel' + 1, .operator, current, [], _, _ => rfl
  | fuel + 1, fuel' + 1, .operand negated, current, c :: rest, h, h' => by
      simp only [bound, List.length_cons] at h h'
      rw [alternatives, alternatives]
      split_ifs with hminus hquote hskip
      · exact alternatives_fuel (by simp only [bound]; omega) (by simp only [bound]; omega)
      · have hlength : ((rest.dropWhile (· ≠ quote)).drop 1).length ≤ rest.length := by
          rw [List.length_drop]
          exact (Nat.sub_le _ _).trans (List.dropWhile_suffix _).length_le
        exact alternatives_fuel (by simp only [bound]; omega) (by simp only [bound]; omega)
      · exact alternatives_fuel (by simp only [bound]; omega) (by simp only [bound]; omega)
      · have hword : A.inWord c = true := by
          rw [Bool.not_eq_true, Bool.or_eq_false_iff] at hskip
          simp [Alphabet.inWord, hskip.1, hskip.2, hquote]
        have hlength : ((c :: rest).dropWhile A.inWord).length ≤ rest.length := by
          rw [List.dropWhile_cons_of_pos hword]
          exact (List.dropWhile_suffix _).length_le
        exact alternatives_fuel (by simp only [bound]; omega) (by simp only [bound]; omega)
  | fuel + 1, fuel' + 1, .operator, current, c :: rest, h, h' => by
      simp only [bound, List.length_cons] at h h'
      rw [alternatives, alternatives]
      split_ifs with hfollows hspace
      · have hlength : ((c :: rest).drop 2).length ≤ rest.length := by
          rw [List.length_drop, List.length_cons]
          omega
        exact congrArg (current :: ·)
          (alternatives_fuel (by simp only [bound]; omega) (by simp only [bound]; omega))
      · exact alternatives_fuel (by simp only [bound]; omega) (by simp only [bound]; omega)
      · exact alternatives_fuel (by simp only [bound, List.length_cons]; omega)
          (by simp only [bound, List.length_cons]; omega)

/-! ## 2. Matches -/

/-- What the operands say about a text; `none` where one holds stop words alone. -/
abbrev Meaning := Operand → Option Bool

def Literal.value (meaning : Meaning) (literal : Literal) : Option Bool :=
  (meaning literal.operand).map (· ^^ literal.negated)

/-- The literals that say something hold, and there is one. -/
def holds (meaning : Meaning) (group : List Literal) : Bool :=
  group.any (fun l => l.value meaning = some true) &&
    group.all fun l => l.value meaning ≠ some false

/-- A text matches: one of the alternatives holds. -/
def Matches (meaning : Meaning) (groups : List (List Literal)) : Prop :=
  ∃ group ∈ groups, holds meaning group = true

instance (meaning : Meaning) (groups : List (List Literal)) : Decidable (Matches meaning groups) :=
  inferInstanceAs (Decidable (∃ group ∈ groups, holds meaning group = true))

/-- The stop words of a meaning: an `or`, alone or before a mark, and nothing at all. -/
structure DropsOr (A : Alphabet) (meaning : Meaning) : Prop where
  word : ∀ text, orStarts A text = true → text.length ≤ 3 → meaning ⟨false, text⟩ = none
  phrase : ∀ text, (∀ c ∈ text, A.space c = true) → meaning ⟨true, text⟩ = none

theorem holds_append_dropped {meaning : Meaning} {group dropped : List Literal}
    (h : ∀ l ∈ dropped, meaning l.operand = none) :
    holds meaning (group ++ dropped) = holds meaning group := by
  have hvalue : ∀ l ∈ dropped, l.value meaning = none := by
    intro l hl
    rw [Literal.value, h l hl]
    rfl
  have hany : dropped.any (fun l => l.value meaning = some true) = false := by
    rw [List.any_eq_false]
    intro l hl
    simp [hvalue l hl]
  have hall : dropped.all (fun l => l.value meaning ≠ some false) = true := by
    rw [List.all_eq_true]
    intro l hl
    simp [hvalue l hl]
  rw [holds, List.any_append, List.all_append, hany, hall, Bool.or_false, Bool.and_true]
  rfl

theorem holds_iff {meaning : Meaning} {group : List Literal} :
    holds meaning group = true ↔
      (∃ l ∈ group, l.value meaning = some true) ∧ ∀ l ∈ group, l.value meaning ≠ some false := by
  simp [holds]

theorem matches_cons {meaning : Meaning} {group : List Literal} {groups : List (List Literal)} :
    Matches meaning (group :: groups) ↔ holds meaning group = true ∨ Matches meaning groups := by
  simp [Matches]

/-! ## 3. Settled queries -/

/-- The reader ends where an operator may follow, or with nothing read since the last
    `or`. -/
def settled (A : Alphabet) : Nat → Waiting → List Literal → List Char → Bool
  | 0, _, _, _ => false
  | _ + 1, .operand _, current, [] => current.isEmpty
  | fuel + 1, .operand negated, current, c :: rest =>
      if c = '-' then settled A fuel (.operand (!negated)) current rest
      else if c = quote then
        rest.contains quote &&
          settled A fuel .operator
            (current ++ [⟨negated, true, rest.takeWhile (· ≠ quote)⟩])
            ((rest.dropWhile (· ≠ quote)).drop 1)
      else if A.space c || A.ignored c then settled A fuel (.operand negated) current rest
      else
        settled A fuel .operator
          (current ++ [⟨negated, false, (c :: rest).takeWhile A.inWord⟩])
          ((c :: rest).dropWhile A.inWord)
  | _ + 1, .operator, _, [] => true
  | fuel + 1, .operator, current, c :: rest =>
      if orFollows A (c :: rest) then settled A fuel (.operand false) [] ((c :: rest).drop 2)
      else if orStarts A (c :: rest) then true
      else if A.space c then settled A fuel .operator current rest
      else settled A fuel (.operand false) current (c :: rest)

/-- **A query behind which an `or` is the operator.** -/
def Settled (A : Alphabet) (query : List Char) : Prop :=
  settled A (bound (.operand false) query + 1) (.operand false) [] query = true

instance (query : List Char) : Decidable (Settled A query) :=
  inferInstanceAs (Decidable (settled A _ _ _ query = true))

/-! ## 4. An `or` behind a query -/

section Behind

variable {meaning : Meaning} {current : List Literal} {text more : List Char}

/-- ` or "`, and more. -/
def orQuote (more : List Char) : List Char := ' ' :: 'o' :: 'r' :: ' ' :: quote :: more

theorem orFollows_append (hA : A.Plain) (h : text ≠ []) :
    orFollows A (text ++ orQuote more) = orStarts A text := by
  have hletter : A.space 'o' = false := (hA.letter 'o' (.inl rfl)).1
  have htail : ∀ rest : List Char, (rest ++ orQuote more).any (fun c => !A.space c) = true := by
    intro rest
    refine List.any_eq_true.mpr ⟨'o', by simp [orQuote], ?_⟩
    rw [hletter]
    rfl
  match text, h with
  | [c], _ => simp [orFollows, orStarts, orQuote]
  | [o, r], _ =>
      have hthird : (('o' :: 'r' :: ' ' :: quote :: more).any fun c => !A.space c) = true := by
        rw [List.any_cons, hletter]
        rfl
      simp only [orFollows, orStarts, orQuote, List.cons_append, List.nil_append, List.drop_succ_cons,
        List.drop_zero, hthird, Bool.and_true, List.head?_cons, Option.any_some, hA.word,
        List.head?_nil, Option.any_none]
      rfl
  | o :: r :: c :: rest, _ =>
      simp only [orFollows, orStarts, List.cons_append, List.drop_succ_cons, List.drop_zero, htail,
        Bool.and_true, List.head?_cons]

theorem orFollows_of_space {c : Char} (hA : A.Plain) (h : A.space c = true) :
    orFollows A (c :: text) = false := by
  have hne : ∀ d, d = 'o' ∨ d = 'O' → c ≠ d := by
    intro d hd heq
    have hspace := (hA.letter d (hd.imp id .inl)).1
    rw [← heq, h] at hspace
    cases hspace
  cases text with
  | nil => rfl
  | cons r rest => simp [orFollows, orStarts, hne 'o' (.inl rfl), hne 'O' (.inr rfl)]

/-- White space adds nothing. -/
theorem alternatives_blank (hA : A.Plain) : ∀ (fuel : Nat) (waiting : Waiting) {text : List Char},
    (∀ c ∈ text, A.space c = true) → alternatives A fuel waiting current text = [current]
  | 0, _, _, _ => rfl
  | _ + 1, .operand _, [], _ => rfl
  | _ + 1, .operator, [], _ => rfl
  | fuel + 1, .operand negated, c :: rest, h => by
      have hspace := h c List.mem_cons_self
      have hrest : ∀ d ∈ rest, A.space d = true := fun d hd => h d (List.mem_cons_of_mem c hd)
      have hquote : c ≠ quote := by
        intro heq
        rw [heq, hA.quote] at hspace
        cases hspace
      rw [alternatives]
      split_ifs
      · exact alternatives_blank hA fuel _ hrest
      · exact alternatives_blank hA fuel _ hrest
      · rename_i hother
        rw [hspace, Bool.true_or] at hother
        exact absurd rfl hother
  | fuel + 1, .operator, c :: rest, h => by
      have hspace := h c List.mem_cons_self
      rw [alternatives, orFollows_of_space hA hspace, if_neg Bool.false_ne_true, if_pos hspace]
      exact alternatives_blank hA fuel _ fun d hd => h d (List.mem_cons_of_mem c hd)

theorem orStarts_cons (h : orStarts A text = true) :
    ∃ o r rest, text = o :: r :: rest ∧ (o = 'o' ∨ o = 'O') ∧ (r = 'r' ∨ r = 'R') ∧
      ∀ c ∈ rest.head?, c ≠ '-' := by
  match text, h with
  | o :: r :: rest, h =>
      simp only [orStarts, Bool.and_eq_true, Bool.or_eq_true, decide_eq_true_eq, Bool.not_eq_true'] at h
      refine ⟨o, r, rest, rfl, h.1.1, h.1.2, fun c hc heq => ?_⟩
      rw [Option.mem_def.mp hc, Option.any_some, heq] at h
      simp at h

theorem inWord_letter (hA : A.Plain) {c : Char} (h : c = 'o' ∨ c = 'O' ∨ c = 'r' ∨ c = 'R') :
    A.inWord c = true ∧ c ≠ '-' ∧ c ≠ quote := by
  obtain ⟨hspace, hignored⟩ := hA.letter c h
  have hne : c ≠ '-' ∧ c ≠ quote := by
    rcases h with rfl | rfl | rfl | rfl <;> exact ⟨by decide, by decide⟩
  refine ⟨?_, hne⟩
  simp [Alphabet.inWord, hspace, hignored, hne.2]

/-- An `or` is read as a word where an operand may stand. -/
theorem alternatives_letter (hA : A.Plain) {fuel : Nat} {negated : Bool} {o : Char} {rest : List Char}
    (ho : o = 'o' ∨ o = 'O') :
    alternatives A (fuel + 1) (.operand negated) current (o :: rest) =
      alternatives A fuel .operator
        (current ++ [⟨negated, false, o :: rest.takeWhile A.inWord⟩]) (rest.dropWhile A.inWord) := by
  have hletter : o = 'o' ∨ o = 'O' ∨ o = 'r' ∨ o = 'R' := ho.imp id .inl
  obtain ⟨hword, hminus, hquote⟩ := inWord_letter hA hletter
  obtain ⟨hspace, hignored⟩ := hA.letter o hletter
  rw [alternatives, if_neg hminus, if_neg hquote, hspace, hignored, Bool.or_self,
    if_neg Bool.false_ne_true, List.takeWhile_cons_of_pos hword, List.dropWhile_cons_of_pos hword]

/-- A mark at the end of a query adds nothing that says anything. -/
theorem alternatives_mark (hA : A.Plain) (hm : DropsOr A meaning) (current : List Literal)
    {c : Char} {blanks : List Char} (hblank : ∀ d ∈ blanks, A.space d = true) (hmark : A.inWord c = false) (hminus : c ≠ '-')
    (fuel : Nat) :
    ∃ dropped, alternatives A fuel .operator current (c :: blanks) = [current ++ dropped] ∧
      ∀ l ∈ dropped, meaning l.operand = none := by
  have hnothing : ∀ l ∈ ([] : List Literal), meaning l.operand = none := fun l hl => nomatch hl
  have hself : [current] = [current ++ []] := by rw [List.append_nil]
  have hfollows : orFollows A (c :: blanks) = false := by
    rw [Bool.eq_false_iff]
    intro hfollows
    obtain ⟨o, r, rest, heq, ho, -⟩ := orStarts_cons (Bool.and_eq_true_iff.mp hfollows).1
    obtain ⟨rfl, -⟩ := List.cons.inj heq
    rw [(inWord_letter hA (ho.imp id .inl)).1] at hmark
    cases hmark
  cases fuel with
  | zero => exact ⟨[], hself, hnothing⟩
  | succ fuel =>
  rw [alternatives, hfollows, if_neg Bool.false_ne_true]
  by_cases hspace : A.space c = true
  · rw [if_pos hspace, alternatives_blank hA fuel _ hblank]
    exact ⟨[], hself, hnothing⟩
  rw [if_neg hspace]
  cases fuel with
  | zero => exact ⟨[], hself, hnothing⟩
  | succ fuel =>
  rw [alternatives, if_neg hminus]
  by_cases hquote : c = quote
  · have hall : ∀ d ∈ blanks, decide (d ≠ quote) = true := by
      intro d hd
      refine decide_eq_true fun heq => ?_
      have hd' := hblank d hd
      rw [heq, hA.quote] at hd'
      cases hd'
    rw [if_pos hquote, List.takeWhile_eq_self_iff.mpr hall, List.dropWhile_eq_nil_iff.mpr hall,
      List.drop_nil]
    refine ⟨_, alternatives_blank hA fuel _ (fun d hd => nomatch hd), ?_⟩
    intro l hl
    obtain rfl := List.mem_singleton.mp hl
    exact hm.phrase _ hblank
  · have hignored : (A.space c || A.ignored c) = true := by
      simp only [Alphabet.inWord, Bool.not_eq_false', hquote, decide_false, Bool.or_false] at hmark
      exact hmark
    rw [if_neg hquote, if_pos hignored, alternatives_blank hA fuel _ hblank]
    exact ⟨[], hself, hnothing⟩

/-- What an `or` at the end of a query adds to the literals before it says nothing. -/
theorem alternatives_trailing (hA : A.Plain) (hm : DropsOr A meaning) (hstarts : orStarts A text = true)
    (hends : orFollows A text = false) (fuel : Nat) :
    ∃ dropped, alternatives A fuel .operator current text = [current ++ dropped] ∧
      ∀ l ∈ dropped, meaning l.operand = none := by
  have hnothing : ∀ l ∈ ([] : List Literal), meaning l.operand = none := fun l hl => nomatch hl
  have hself : [current] = [current ++ []] := by rw [List.append_nil]
  obtain ⟨o, r, rest, rfl, ho, hr, hhyphen⟩ := orStarts_cons hstarts
  cases fuel with
  | zero => exact ⟨[], hself, hnothing⟩
  | succ fuel =>
  have hspace : A.space o = false := (hA.letter o (ho.imp id .inl)).1
  rw [alternatives, hends, if_neg Bool.false_ne_true, hspace, if_neg Bool.false_ne_true]
  cases fuel with
  | zero => exact ⟨[], hself, hnothing⟩
  | succ fuel =>
  obtain ⟨hword, -, -⟩ := inWord_letter hA (show r = 'o' ∨ r = 'O' ∨ r = 'r' ∨ r = 'R' from .inr (.inr hr))
  rw [alternatives_letter hA ho, List.takeWhile_cons_of_pos hword, List.dropWhile_cons_of_pos hword]
  have hshort : orStarts A [o, r] = true := by
    simp only [orStarts, Bool.and_eq_true] at hstarts ⊢
    exact ⟨hstarts.1, rfl⟩
  cases rest with
  | nil =>
      refine ⟨[⟨false, false, [o, r]⟩], ?_, ?_⟩
      · rw [List.takeWhile_nil, List.dropWhile_nil]
        exact alternatives_blank hA fuel _ fun d hd => nomatch hd
      · intro l hl
        obtain rfl := List.mem_singleton.mp hl
        exact hm.word _ hstarts (by simp)
  | cons c blanks =>
      have hblank : ∀ d ∈ blanks, A.space d = true := by
        rw [orFollows, hstarts, Bool.true_and, List.any_eq_false] at hends
        intro d hd
        have hspace := hends d hd
        rwa [Bool.not_eq_true, Bool.not_eq_false'] at hspace
      by_cases hc : A.inWord c = true
      · -- a mark that belongs to the word
        have hstop : blanks.takeWhile A.inWord = [] ∧ blanks.dropWhile A.inWord = blanks := by
          cases blanks with
          | nil => exact ⟨rfl, rfl⟩
          | cons d ds =>
              have hd : ¬A.inWord d = true := by
                simp [Alphabet.inWord, hblank d List.mem_cons_self]
              exact ⟨List.takeWhile_cons_of_neg hd, List.dropWhile_cons_of_neg hd⟩
        rw [List.takeWhile_cons_of_pos hc, List.dropWhile_cons_of_pos hc, hstop.1, hstop.2,
          alternatives_blank hA fuel _ hblank]
        refine ⟨_, rfl, fun l hl => ?_⟩
        obtain rfl := List.mem_singleton.mp hl
        exact hm.word _ hstarts (by simp)
      · rw [List.takeWhile_cons_of_neg hc, List.dropWhile_cons_of_neg hc]
        rw [Bool.not_eq_true] at hc
        obtain ⟨dropped, hresult, hdropped⟩ := alternatives_mark hA hm
          (current ++ [⟨false, false, [o, r]⟩]) hblank hc (hhyphen c rfl) fuel
        refine ⟨⟨false, false, [o, r]⟩ :: dropped, ?_, ?_⟩
        · rw [hresult, List.append_assoc]
          rfl
        · intro l hl
          rcases List.mem_cons.mp hl with rfl | hl
          · exact hm.word _ hshort (by simp)
          · exact hdropped l hl

/-- The next operand ends where it ends without the `or`. -/
theorem word_append (hA : A.Plain) (text more : List Char) :
    (text ++ orQuote more).takeWhile A.inWord = text.takeWhile A.inWord ∧
      (text ++ orQuote more).dropWhile A.inWord = text.dropWhile A.inWord ++ orQuote more := by
  have hspace : ¬A.inWord ' ' = true := by simp [Alphabet.inWord, hA.blank]
  induction text with
  | nil => exact ⟨List.takeWhile_cons_of_neg hspace, List.dropWhile_cons_of_neg hspace⟩
  | cons c text ih =>
      by_cases hc : A.inWord c = true
      · rw [List.cons_append, List.takeWhile_cons_of_pos hc, List.takeWhile_cons_of_pos hc,
          List.dropWhile_cons_of_pos hc, List.dropWhile_cons_of_pos hc, ih.1]
        exact ⟨rfl, ih.2⟩
      · rw [List.cons_append, List.takeWhile_cons_of_neg hc, List.takeWhile_cons_of_neg hc,
          List.dropWhile_cons_of_neg hc, List.dropWhile_cons_of_neg hc]
        exact ⟨rfl, rfl⟩

/-- A closed phrase ends where it ends without what follows. -/
theorem phrase_append {rest : List Char} (behind : List Char) (h : quote ∈ rest) :
    (rest ++ behind).takeWhile (· ≠ quote) = rest.takeWhile (· ≠ quote) ∧
      ((rest ++ behind).dropWhile (· ≠ quote)).drop 1 =
        (rest.dropWhile (· ≠ quote)).drop 1 ++ behind := by
  induction rest with
  | nil => cases h
  | cons c rest ih =>
      by_cases hc : c = quote
      · subst hc
        simp
      · obtain ⟨htake, hdrop⟩ := ih ((List.mem_cons.mp h).resolve_left (Ne.symm hc))
        simp only [List.cons_append, List.takeWhile_cons, List.dropWhile_cons, hc, ne_eq,
          not_false_eq_true, decide_true, if_true]
        exact ⟨congrArg (c :: ·) htake, hdrop⟩

/-- **Behind a settled query an `or` begins a new alternative.** -/
theorem matches_append_from (hA : A.Plain) (hm : DropsOr A meaning) :
    ∀ {fuel fuel' : Nat} {waiting : Waiting} {current : List Literal} {text : List Char},
      fuel + 4 ≤ fuel' → settled A fuel waiting current text = true →
        Matches meaning (alternatives A fuel waiting current text) →
          Matches meaning (alternatives A fuel' waiting current (text ++ orQuote more))
  | 0, _, _, _, _, _, hsettled, _ => by cases hsettled
  | fuel + 1, fuel' + 1, .operand negated, current, [], hfuel, hsettled, hmatch => by
      -- nothing was read since the last `or`, so nothing holds
      rw [settled, List.isEmpty_iff] at hsettled
      rw [hsettled] at hmatch
      obtain ⟨group, hgroup, hholds⟩ := hmatch
      obtain rfl := List.mem_singleton.mp hgroup
      cases hholds
  | fuel + 1, fuel' + 1, .operand negated, current, c :: rest, hfuel, hsettled, hmatch => by
      have hfuel' : fuel + 4 ≤ fuel' := by omega
      rw [settled] at hsettled
      rw [alternatives] at hmatch
      rw [List.cons_append, alternatives]
      by_cases hminus : c = '-'
      · rw [if_pos hminus] at hsettled hmatch ⊢
        exact matches_append_from hA hm hfuel' hsettled hmatch
      rw [if_neg hminus] at hsettled hmatch ⊢
      by_cases hquote : c = quote
      · rw [if_pos hquote] at hsettled hmatch ⊢
        rw [Bool.and_eq_true, List.contains_iff_mem] at hsettled
        obtain ⟨htake, hdrop⟩ := phrase_append (orQuote more) hsettled.1
        rw [htake, hdrop]
        exact matches_append_from hA hm hfuel' hsettled.2 hmatch
      rw [if_neg hquote] at hsettled hmatch ⊢
      by_cases hskip : (A.space c || A.ignored c) = true
      · rw [if_pos hskip] at hsettled hmatch ⊢
        exact matches_append_from hA hm hfuel' hsettled hmatch
      rw [if_neg hskip] at hsettled hmatch ⊢
      obtain ⟨htake, hdrop⟩ := word_append hA (c :: rest) more
      rw [List.cons_append] at htake hdrop
      rw [htake, hdrop]
      exact matches_append_from hA hm hfuel' hsettled hmatch
  | fuel + 1, fuel' + 2, .operator, current, [], hfuel, hsettled, hmatch => by
      have hfollows : orFollows A ('o' :: 'r' :: ' ' :: quote :: more) = true := by
        simp [orFollows, orStarts, hA.word, hA.quote]
      rw [alternatives] at hmatch
      rw [List.nil_append, orQuote, alternatives, orFollows_of_space hA hA.blank,
        if_neg Bool.false_ne_true, if_pos hA.blank, alternatives, hfollows, if_pos rfl, matches_cons]
      rw [matches_cons] at hmatch
      rcases hmatch with hmatch | hmatch
      · exact .inl hmatch
      · obtain ⟨group, hgroup, -⟩ := hmatch
        cases hgroup
  | fuel + 1, fuel' + 1, .operator, current, c :: rest, hfuel, hsettled, hmatch => by
      have hfuel' : fuel + 4 ≤ fuel' := by omega
      have hfollows : orFollows A (c :: (rest ++ orQuote more)) = orStarts A (c :: rest) :=
        orFollows_append hA (List.cons_ne_nil c rest)
      rw [settled] at hsettled
      rw [List.cons_append, alternatives, hfollows]
      by_cases hstarts : orStarts A (c :: rest) = true
      · rw [if_pos hstarts, matches_cons]
        by_cases hends : orFollows A (c :: rest) = true
        · rw [if_pos hends] at hsettled
          rw [alternatives, if_pos hends, matches_cons] at hmatch
          rcases hmatch with hmatch | hmatch
          · exact .inl hmatch
          · obtain ⟨o, r, tail, heq, -⟩ := orStarts_cons hstarts
            obtain ⟨rfl, rfl⟩ := List.cons.inj heq
            exact .inr (matches_append_from hA hm hfuel' hsettled hmatch)
        · -- the `or` was a word at the end of the query
          rw [Bool.not_eq_true] at hends
          obtain ⟨dropped, hresult, hdropped⟩ := alternatives_trailing hA hm hstarts hends (fuel + 1)
          rw [hresult, matches_cons, holds_append_dropped hdropped] at hmatch
          rcases hmatch with hmatch | hmatch
          · exact .inl hmatch
          · obtain ⟨group, hgroup, -⟩ := hmatch
            cases hgroup
      · have hends : ¬orFollows A (c :: rest) = true := fun h => hstarts (Bool.and_eq_true_iff.mp h).1
        rw [if_neg hends, if_neg hstarts] at hsettled
        rw [alternatives, if_neg hends] at hmatch
        rw [if_neg hstarts]
        by_cases hspace : A.space c = true
        · rw [if_pos hspace] at hsettled hmatch ⊢
          exact matches_append_from hA hm hfuel' hsettled hmatch
        · rw [if_neg hspace] at hsettled hmatch ⊢
          exact matches_append_from hA hm hfuel' hsettled hmatch

/-- **What a settled query matches, the query with alternatives behind it matches.** -/
theorem matches_append (hA : A.Plain) (hm : DropsOr A meaning) {query : List Char}
    (hsettled : Settled A query) (h : Matches meaning (parse A query)) :
    Matches meaning (parse A (query ++ orQuote more)) := by
  refine matches_append_from hA hm ?_ hsettled h
  simp only [bound, List.length_append, orQuote, List.length_cons]
  omega

end Behind

/-! ## 5. Queries that are not settled -/

section Unsettled

variable {meaning : Meaning} {current : List Literal} {text more word : List Char}

/-- A word of the reader that is no operator. -/
structure PlainWord (A : Alphabet) (word : List Char) : Prop where
  ne_nil : word ≠ []
  inWord : ∀ c ∈ word, A.inWord c = true ∧ c ≠ '-'
  noOr : orStarts A word = false

theorem inWord_eq_true {c : Char} :
    A.inWord c = true ↔ A.space c = false ∧ A.ignored c = false ∧ c ≠ quote := by
  simp [Alphabet.inWord, and_assoc]

theorem PlainWord.orFollows (h : PlainWord A word) :
    orFollows A (word ++ [quote]) = false := by
  obtain ⟨hne, hword, hno⟩ := h
  rw [Websearch.orFollows, Bool.and_eq_false_iff]
  match word, hne with
  | [c], _ => exact .inl (by simp [orStarts, quote])
  | [o, r], _ => exact .inr (by simp)
  | o :: r :: c :: rest, _ => exact .inl (by simpa [orStarts] using hno)

/-- Where an operator may follow, a plain word and a quote are two operands. -/
theorem alternatives_plainWord (h : PlainWord A word) (hA : A.Plain) (fuel : Nat)
    (current : List Literal) :
    ∃ last, alternatives A (fuel + 5) .operator current (word ++ [quote]) = [last] ∧
      (⟨false, false, word⟩ : Literal) ∈ last := by
  have hall : ∀ c ∈ word, A.inWord c = true := fun c hc => (h.inWord c hc).1
  have hstop : ¬A.inWord quote = true := by
    rw [inWord_eq_true]
    exact fun hquote => hquote.2.2 rfl
  have htake : (word ++ [quote]).takeWhile A.inWord = word := by
    rw [List.takeWhile_append_of_pos hall, List.takeWhile_cons_of_neg hstop, List.append_nil]
  have hdrop : (word ++ [quote]).dropWhile A.inWord = [quote] := by
    rw [List.dropWhile_append_of_pos hall, List.dropWhile_cons_of_neg hstop]
  obtain ⟨c, rest, rfl⟩ := List.exists_cons_of_ne_nil h.ne_nil
  obtain ⟨hword, hminus⟩ := h.inWord c List.mem_cons_self
  obtain ⟨hspace, hignored, hquote⟩ := inWord_eq_true.mp hword
  have hfollows := h.orFollows
  have hquoteFollows : Websearch.orFollows A [quote] = false := rfl
  rw [List.cons_append] at htake hdrop hfollows ⊢
  rw [alternatives, hfollows, if_neg Bool.false_ne_true, hspace, if_neg Bool.false_ne_true,
    alternatives, if_neg hminus, if_neg hquote, hspace, hignored, Bool.or_self,
    if_neg Bool.false_ne_true, htake, hdrop, alternatives, hquoteFollows,
    if_neg Bool.false_ne_true, hA.quote, if_neg Bool.false_ne_true, alternatives,
    if_neg (by decide), if_pos rfl]
  refine ⟨_, rfl, ?_⟩
  simp

theorem orFollows_quote (rest : List Char) : orFollows A (quote :: rest) = false := by
  cases rest with
  | nil => rfl
  | cons r rest => simp [orFollows, orStarts, quote]

theorem phrase_closed (behind : List Char) (h : ∀ c ∈ text, c ≠ quote) :
    (text ++ quote :: behind).takeWhile (· ≠ quote) = text ∧
      ((text ++ quote :: behind).dropWhile (· ≠ quote)).drop 1 = behind := by
  induction text with
  | nil => simp
  | cons c text ih =>
      obtain ⟨htake, hdrop⟩ := ih fun d hd => h d (List.mem_cons_of_mem c hd)
      simp only [List.cons_append, List.takeWhile_cons, List.dropWhile_cons,
        h c List.mem_cons_self, ne_eq, not_false_eq_true, decide_true, if_true]
      exact ⟨congrArg (c :: ·) htake, hdrop⟩

/-- Where an operand may stand, an `or` is a word and the phrase behind it another operand. -/
theorem alternatives_orPhrase (h : PlainWord A word) (hA : A.Plain) (fuel : Nat) (negated : Bool)
    (current : List Literal) :
    ∃ last, alternatives A (fuel + 6) (.operand negated) current (orQuote (word ++ [quote])) = [last] ∧
      (⟨false, true, word⟩ : Literal) ∈ last := by
  obtain ⟨htake, hdrop⟩ := phrase_closed [] fun c hc => (inWord_eq_true.mp (h.inWord c hc).1).2.2
  have hr := (inWord_letter hA (.inr (.inr (.inl rfl)))).1
  have hblank : ¬A.inWord ' ' = true := by simp [Alphabet.inWord, hA.blank]
  rw [orQuote, alternatives, if_neg (by decide), if_neg (by decide), hA.blank, Bool.true_or,
    if_pos rfl, alternatives_letter hA (.inl rfl), List.takeWhile_cons_of_pos hr,
    List.dropWhile_cons_of_pos hr, List.takeWhile_cons_of_neg hblank,
    List.dropWhile_cons_of_neg hblank, alternatives, orFollows_of_space hA hA.blank,
    if_neg Bool.false_ne_true, if_pos hA.blank, alternatives, orFollows_quote,
    if_neg Bool.false_ne_true, hA.quote, if_neg Bool.false_ne_true, alternatives,
    if_neg (by decide), if_pos rfl, htake, hdrop]
  exact ⟨_, rfl, List.mem_append_right _ List.mem_cons_self⟩

/-- The alternatives but the last one stay, and a plain phrase behind the text becomes
    an operand of the last one. -/
def Joined (A : Alphabet) (before after : List (List Literal)) (more : List Char) : Prop :=
  ∃ front last back, before = front ++ [last] ∧ after = front ++ back ∧
    ∀ word, PlainWord A word → more = word ++ [quote] →
      ∃ joined quoted, back = [joined] ∧ (⟨false, quoted, word⟩ : Literal) ∈ joined

theorem Joined.cons {before after : List (List Literal)} (group : List Literal)
    (h : Joined A before after more) : Joined A (group :: before) (group :: after) more := by
  obtain ⟨front, last, back, rfl, rfl, hback⟩ := h
  exact ⟨group :: front, last, back, rfl, rfl, hback⟩

/-- **Behind a query that is not settled nothing new begins.** -/
theorem joined_of_unsettled (hA : A.Plain) :
    ∀ {fuel fuel' : Nat} {waiting : Waiting} {current : List Literal} {text : List Char},
      bound waiting text < fuel → fuel + 8 ≤ fuel' → settled A fuel waiting current text = false →
        Joined A (alternatives A fuel waiting current text)
          (alternatives A fuel' waiting current (text ++ orQuote more)) more
  | fuel + 1, fuel' + 6, .operand negated, current, [], _, _, _ => by
      refine ⟨[], current, alternatives A (fuel' + 6) (.operand negated) current (orQuote more),
        rfl, rfl, fun word hword hmore => ?_⟩
      rw [hmore]
      obtain ⟨joined, hjoined, hmem⟩ := alternatives_orPhrase hword hA fuel' negated current
      exact ⟨joined, true, hjoined, hmem⟩
  | fuel + 1, fuel' + 1, .operand negated, current, c :: rest, hbound, hfuel, hsettled => by
      have hfuel' : fuel + 8 ≤ fuel' := by omega
      simp only [bound, List.length_cons] at hbound
      rw [settled] at hsettled
      rw [List.cons_append, alternatives, alternatives]
      by_cases hminus : c = '-'
      · rw [if_pos hminus] at hsettled
        rw [if_pos hminus, if_pos hminus]
        exact joined_of_unsettled hA (by simp only [bound]; omega) hfuel' hsettled
      rw [if_neg hminus] at hsettled
      rw [if_neg hminus, if_neg hminus]
      by_cases hquote : c = quote
      · rw [if_pos hquote] at hsettled
        rw [if_pos hquote, if_pos hquote]
        by_cases hclosed : quote ∈ rest
        · have hlength : ((rest.dropWhile (· ≠ quote)).drop 1).length ≤ rest.length := by
            rw [List.length_drop]
            exact (Nat.sub_le _ _).trans (List.dropWhile_suffix _).length_le
          rw [List.contains_iff_mem.mpr hclosed, Bool.true_and] at hsettled
          obtain ⟨htake, hdrop⟩ := phrase_append (orQuote more) hclosed
          rw [htake, hdrop]
          exact joined_of_unsettled hA (by simp only [bound]; omega) hfuel' hsettled
        · -- the phrase takes the ` or ` in
          have hopen : ∀ d ∈ rest, decide (d ≠ quote) = true := fun d hd =>
            decide_eq_true fun heq => hclosed (heq ▸ hd)
          have hmore : rest ++ orQuote more = (rest ++ [' ', 'o', 'r', ' ']) ++ quote :: more := by
            simp [orQuote]
          have hphrase : ∀ d ∈ rest ++ [' ', 'o', 'r', ' '], d ≠ quote := by
            intro d hd
            rcases List.mem_append.mp hd with hd | hd
            · exact fun heq => hclosed (heq ▸ hd)
            · exact fun heq => absurd (heq ▸ hd) (by decide)
          obtain ⟨htake, hdrop⟩ := phrase_closed more hphrase
          obtain ⟨fuel, rfl⟩ : ∃ f, fuel = f + 1 := ⟨fuel - 1, by omega⟩
          obtain ⟨fuel', rfl⟩ : ∃ f, fuel' = f + 5 := ⟨fuel' - 5, by omega⟩
          rw [hmore, htake, hdrop, List.takeWhile_eq_self_iff.mpr hopen,
            List.dropWhile_eq_nil_iff.mpr hopen, List.drop_nil]
          refine ⟨[], _, _, rfl, rfl, fun word hword hmore => ?_⟩
          rw [hmore]
          obtain ⟨joined, hjoined, hmem⟩ := alternatives_plainWord hword hA fuel' _
          exact ⟨joined, false, hjoined, hmem⟩
      rw [if_neg hquote] at hsettled
      rw [if_neg hquote, if_neg hquote]
      by_cases hskip : (A.space c || A.ignored c) = true
      · rw [if_pos hskip] at hsettled
        rw [if_pos hskip, if_pos hskip]
        exact joined_of_unsettled hA (by simp only [bound]; omega) hfuel' hsettled
      rw [if_neg hskip] at hsettled
      rw [if_neg hskip, if_neg hskip]
      have hword : A.inWord c = true := by
        rw [Bool.not_eq_true, Bool.or_eq_false_iff] at hskip
        exact inWord_eq_true.mpr ⟨hskip.1, hskip.2, hquote⟩
      have hlength : ((c :: rest).dropWhile A.inWord).length ≤ rest.length := by
        rw [List.dropWhile_cons_of_pos hword]
        exact (List.dropWhile_suffix _).length_le
      obtain ⟨htake, hdrop⟩ := word_append hA (c :: rest) more
      rw [List.cons_append] at htake hdrop
      rw [htake, hdrop]
      exact joined_of_unsettled hA (by simp only [bound]; omega) hfuel' hsettled
  | fuel + 1, fuel' + 1, .operator, current, [], _, _, hsettled => by cases hsettled
  | fuel + 1, fuel' + 1, .operator, current, c :: rest, hbound, hfuel, hsettled => by
      have hfuel' : fuel + 8 ≤ fuel' := by omega
      have hfollows : orFollows A (c :: (rest ++ orQuote more)) = orStarts A (c :: rest) :=
        orFollows_append hA (List.cons_ne_nil c rest)
      simp only [bound, List.length_cons] at hbound
      rw [settled] at hsettled
      rw [List.cons_append, alternatives, alternatives, hfollows]
      by_cases hends : orFollows A (c :: rest) = true
      · have hstarts := (Bool.and_eq_true_iff.mp hends).1
        obtain ⟨o, r, tail, heq, -⟩ := orStarts_cons hstarts
        obtain ⟨rfl, rfl⟩ := List.cons.inj heq
        rw [if_pos hends] at hsettled
        rw [if_pos hends, if_pos hstarts]
        refine Joined.cons current (joined_of_unsettled hA ?_ hfuel' hsettled)
        simp only [bound, List.drop_succ_cons, List.drop_zero, List.length_cons] at hbound ⊢
        omega
      rw [if_neg hends] at hsettled
      rw [if_neg hends]
      by_cases hstarts : orStarts A (c :: rest) = true
      · rw [if_pos hstarts] at hsettled
        cases hsettled
      rw [if_neg hstarts] at hsettled
      rw [if_neg hstarts]
      by_cases hspace : A.space c = true
      · rw [if_pos hspace] at hsettled
        rw [if_pos hspace, if_pos hspace]
        exact joined_of_unsettled hA (by simp only [bound]; omega) hfuel' hsettled
      · rw [if_neg hspace] at hsettled
        rw [if_neg hspace, if_neg hspace]
        exact joined_of_unsettled hA (by simp only [bound, List.length_cons]; omega) hfuel' hsettled

/-- What matches the query matches it without its last alternative. -/
def Redundant (A : Alphabet) (query : List Char) : Prop :=
  ∀ meaning, DropsOr A meaning → Matches meaning (parse A query) →
    Matches meaning (parse A query).dropLast

theorem joined_parse (hA : A.Plain) (more : List Char) {query : List Char} (h : ¬Settled A query) :
    Joined A (parse A query) (parse A (query ++ orQuote more)) more := by
  refine joined_of_unsettled hA (Nat.lt_succ_self _) ?_ (Bool.eq_false_iff.mpr h)
  simp only [bound, List.length_append, orQuote, List.length_cons]
  omega

/-- **An `or` behind a query takes nothing away** where the query is settled, or where
    its last alternative adds nothing. -/
theorem matches_append_of (hA : A.Plain) (hm : DropsOr A meaning) {query : List Char}
    (hquery : Settled A query ∨ Redundant A query) (h : Matches meaning (parse A query)) :
    Matches meaning (parse A (query ++ orQuote more)) := by
  by_cases hsettled : Settled A query
  · exact matches_append hA hm hsettled h
  obtain ⟨group, hgroup, hholds⟩ := hquery.resolve_left hsettled meaning hm h
  obtain ⟨front, last, back, hbefore, hafter, -⟩ := joined_parse hA more hsettled
  rw [hbefore, List.dropLast_concat] at hgroup
  rw [hafter]
  exact ⟨group, List.mem_append_left back hgroup, hholds⟩

/-- What one more operand of no effect elsewhere says. -/
def except (meaning : Meaning) (word : List Char) : Meaning := fun operand =>
  if operand.text = word then some false else meaning operand

theorem holds_except {group : List Literal} (h : ∀ l ∈ group, l.operand.text ≠ word) :
    holds (except meaning word) group = holds meaning group := by
  have hvalue : ∀ l ∈ group, l.value (except meaning word) = l.value meaning := by
    intro l hl
    rw [Literal.value, except, if_neg (h l hl), Literal.value]
  rw [Bool.eq_iff_iff, holds_iff, holds_iff]
  constructor
  · intro ⟨⟨l, hl, htrue⟩, hfalse⟩
    exact ⟨⟨l, hl, (hvalue l hl).symm.trans htrue⟩, fun l hl => hvalue l hl ▸ hfalse l hl⟩
  · intro ⟨⟨l, hl, htrue⟩, hfalse⟩
    exact ⟨⟨l, hl, (hvalue l hl).trans htrue⟩, fun l hl => (hvalue l hl).symm ▸ hfalse l hl⟩

theorem dropsOr_except (hword : PlainWord A word) (hm : DropsOr A meaning) :
    DropsOr A (except meaning word) := by
  refine ⟨fun text hstarts hlength => ?_, fun text hblank => ?_⟩
  · rw [except, if_neg fun heq : text = word => ?_]
    · exact hm.word text hstarts hlength
    · rw [heq, hword.noOr] at hstarts
      cases hstarts
  · rw [except, if_neg fun heq : text = word => ?_]
    · exact hm.phrase text hblank
    · obtain ⟨c, hc⟩ := List.exists_mem_of_ne_nil word hword.ne_nil
      have hspace := hblank c (heq ▸ hc)
      rw [(inWord_eq_true.mp (hword.inWord c hc).1).1] at hspace
      cases hspace

/-- **Exactly there an `or` takes nothing away**, whatever the texts are: a plain phrase
    which the query does not mention is lost on the last alternative of any other. -/
theorem matches_append_iff (hA : A.Plain) (hword : PlainWord A word) {query : List Char}
    (hnew : ∀ group ∈ parse A query, ∀ l ∈ group, l.operand.text ≠ word) :
    (∀ meaning, DropsOr A meaning → Matches meaning (parse A query) →
      Matches meaning (parse A (query ++ orQuote (word ++ [quote])))) ↔
        Settled A query ∨ Redundant A query := by
  constructor
  · intro hall
    by_contra hquery
    obtain ⟨hsettled, hredundant⟩ := not_or.mp hquery
    obtain ⟨front, last, back, hbefore, hafter, hback⟩ :=
      joined_parse hA (word ++ [quote]) hsettled
    obtain ⟨joined, quoted, rfl, hjoined⟩ := hback word hword rfl
    refine hredundant fun meaning hm hmatch => ?_
    obtain ⟨group, hgroup, hholds⟩ := hmatch
    have hmatch' : Matches (except meaning word) (parse A query) :=
      ⟨group, hgroup, (holds_except (hnew group hgroup)).trans hholds⟩
    obtain ⟨group', hgroup', hholds'⟩ := hall _ (dropsOr_except hword hm) hmatch'
    rw [hafter] at hgroup'
    rw [hbefore, List.dropLast_concat]
    rcases List.mem_append.mp hgroup' with hfront | hlast
    · have hold := hnew group' (hbefore ▸ List.mem_append_left [last] hfront)
      exact ⟨group', hfront, (holds_except hold).symm.trans hholds'⟩
    · -- the last alternative asks for the new word
      obtain rfl := List.mem_singleton.mp hlast
      refine absurd ?_ ((holds_iff.mp hholds').2 _ hjoined)
      simp [Literal.value, except]
  · intro hquery meaning hm hmatch
    exact matches_append_of hA hm hquery hmatch

end Unsettled

end Helpdesk.Websearch
