/-
  File:      Helpdesk/Lib/Regex.lean
  Subject:   Regular expressions that are tried at one place of a text.

  `lengths` lists how long a match may be, in the order of the search with
  backtracking: a repetition takes as many elements as there are, and fewer when the
  rest of the expression needs them. `Reads` says the same of a part without the
  order; a zero-width assertion sees the element on each side of its place.

  * `mem_lengths_iff`: the lengths are those of the parts that are read;
  * `sub_eq_self`: a text without a match stays as it is;
  * `contains_of_sub`: a match in the new text was one in the old text, where what is
    put for the hits separates them from what is left (`Separates`);
  * `not_contains_sub`: a substitution leaves no match behind.
-/
import Helpdesk.Lib.Scanning
import Mathlib.Data.List.Infix

namespace Helpdesk

open Scanning

/-- Repetitions are of one kind of elements. -/
inductive Regex (α : Type) where
  | one (kind : α → Bool)
  | many (kind : α → Bool) (least : Nat)
  | seq (first second : Regex α)
  | optional (inner : Regex α)
  | check (holds : Option α → Option α → Bool)

namespace Regex

variable {α : Type}

/-! ## 1. Matches at a place -/

/-- How many elements a match may have, the first choice first. -/
def lengths : Regex α → Option α → List α → List Nat
  | one kind, _, text => if text.head?.any kind then [1] else []
  | many kind least, _, text =>
      (List.range' least ((text.takeWhile kind).length + 1 - least)).reverse
  | seq first second, prev, text =>
      (first.lengths prev text).flatMap fun n =>
        (second.lengths (last prev (text.take n)) (text.drop n)).map (n + ·)
  | optional inner, prev, text => inner.lengths prev text ++ [0]
  | check holds, prev, text => if holds prev text.head? then [0] else []

/-- The part between two elements is a match. -/
def Reads : Regex α → Option α → List α → Option α → Prop
  | one kind, _, part, _ => ∃ a, part = [a] ∧ kind a = true
  | many kind least, _, part, _ => least ≤ part.length ∧ ∀ a ∈ part, kind a = true
  | seq first second, prev, part, next =>
      ∃ front back, part = front ++ back ∧ first.Reads prev front (back.head?.or next) ∧
        second.Reads (last prev front) back next
  | optional inner, prev, part, next => inner.Reads prev part next ∨ part = []
  | check holds, prev, part, next => part = [] ∧ holds prev next = true

section Lengths

variable {r first second : Regex α} {prev : Option α} {part rest text : List α} {n : Nat}

theorem mem_lengths_seq : n ∈ (seq first second).lengths prev text ↔
    ∃ m ∈ first.lengths prev text,
      ∃ k ∈ second.lengths (last prev (text.take m)) (text.drop m), m + k = n := by
  simp only [lengths, List.mem_flatMap, List.mem_map]

theorem le_length (h : n ∈ r.lengths prev text) : n ≤ text.length := by
  induction r generalizing prev text n with
  | one kind =>
    cases text with
    | nil => exact absurd h List.not_mem_nil
    | cons a text =>
      rw [lengths] at h
      split at h
      · rw [List.mem_singleton.mp h, List.length_cons]
        omega
      · exact absurd h List.not_mem_nil
  | many kind least =>
    have hrange := List.mem_range'_1.mp (List.mem_reverse.mp h)
    have hprefix := (List.takeWhile_prefix kind (l := text)).length_le
    omega
  | seq first second ihFirst ihSecond =>
    obtain ⟨m, hm, k, hk, rfl⟩ := mem_lengths_seq.mp h
    have hfirst := ihFirst hm
    have hsecond := ihSecond hk
    rw [List.length_drop] at hsecond
    omega
  | optional inner ih =>
    rcases List.mem_append.mp h with h | h
    · exact ih h
    · rw [List.mem_singleton.mp h]
      exact Nat.zero_le _
  | check holds =>
    rw [lengths] at h
    split at h
    · rw [List.mem_singleton.mp h]
      exact Nat.zero_le _
    · exact absurd h List.not_mem_nil

theorem le_takeWhile_iff {kind : α → Bool} :
    part.length ≤ ((part ++ rest).takeWhile kind).length ↔ ∀ a ∈ part, kind a = true := by
  induction part with
  | nil => simp
  | cons a part ih =>
    rw [List.cons_append, List.takeWhile_cons, List.forall_mem_cons]
    split
    · next h =>
      rw [List.length_cons, List.length_cons, Nat.add_le_add_iff_right, ih]
      exact (and_iff_right h).symm
    · next h => simp [h]

/-- **The lengths are those of the parts that are read.** -/
theorem mem_lengths_iff :
    part.length ∈ r.lengths prev (part ++ rest) ↔ r.Reads prev part rest.head? := by
  induction r generalizing prev part rest with
  | one kind =>
    rw [lengths, Reads]
    rcases part with _ | ⟨a, _ | ⟨b, part⟩⟩
    · split <;> simp
    · by_cases h : kind a = true <;> simp [h]
    · split <;> simp
  | many kind least =>
    have hall : part.length ≤ ((part ++ rest).takeWhile kind).length ↔ _ := le_takeWhile_iff
    rw [lengths, Reads, ← hall, List.mem_reverse, List.mem_range'_1]
    omega
  | seq first second ihFirst ihSecond =>
    rw [mem_lengths_seq, Reads]
    constructor
    · intro ⟨m, hm, k, hk, hlength⟩
      obtain ⟨front, back, rfl, rfl⟩ : ∃ front back, part = front ++ back ∧ front.length = m :=
        ⟨part.take m, part.drop m, (List.take_append_drop m part).symm,
          List.length_take_of_le (by omega)⟩
      rw [List.length_append, Nat.add_left_cancel_iff] at hlength
      subst hlength
      rw [List.append_assoc, List.take_left, List.drop_left, ihSecond] at hk
      rw [List.append_assoc, ihFirst, List.head?_append] at hm
      exact ⟨front, back, rfl, hm, hk⟩
    · intro ⟨front, back, hpart, hfirst, hsecond⟩
      subst hpart
      refine ⟨front.length, ?_, back.length, ?_, List.length_append.symm⟩
      · rw [List.append_assoc, ihFirst, List.head?_append]
        exact hfirst
      · rw [List.append_assoc, List.take_left, List.drop_left, ihSecond]
        exact hsecond
  | optional inner ih =>
    rw [lengths, Reads, List.mem_append, ih, List.mem_singleton, List.length_eq_zero_iff]
  | check holds =>
    rw [lengths, Reads]
    rcases part with _ | ⟨a, part⟩
    · rw [List.nil_append]
      split <;> simp_all
    · split <;> simp

end Lengths

/-- The elements a match can have. -/
def alphabet : Regex α → α → Bool
  | one kind, a => kind a
  | many kind _, a => kind a
  | seq first second, a => first.alphabet a || second.alphabet a
  | optional inner, a => inner.alphabet a
  | check _, _ => false

/-- Without assertions. -/
def unchecked : Regex α → Bool
  | seq first second => first.unchecked && second.unchecked
  | optional inner => inner.unchecked
  | check _ => false
  | _ => true

section Parts

variable {r : Regex α} {prev prev' next next' : Option α} {part : List α}

theorem alphabet_of_reads (h : r.Reads prev part next) : ∀ a ∈ part, r.alphabet a = true := by
  induction r generalizing prev part next with
  | one kind =>
    obtain ⟨a, rfl, ha⟩ := h
    exact List.forall_mem_singleton.mpr ha
  | many kind least => exact h.2
  | seq first second ihFirst ihSecond =>
    obtain ⟨front, back, rfl, hfirst, hsecond⟩ := h
    intro a ha
    rw [alphabet, Bool.or_eq_true]
    rcases List.mem_append.mp ha with ha | ha
    · exact .inl (ihFirst hfirst a ha)
    · exact .inr (ihSecond hsecond a ha)
  | optional inner ih =>
    rcases h with h | rfl
    · exact ih h
    · exact fun a ha => absurd ha List.not_mem_nil
  | check holds =>
    rw [h.1]
    exact fun a ha => absurd ha List.not_mem_nil

/-- Without assertions what is around a match does not matter. -/
theorem reads_elsewhere (hfree : r.unchecked = true) (h : r.Reads prev part next) :
    r.Reads prev' part next' := by
  induction r generalizing prev prev' part next next' with
  | one kind => exact h
  | many kind least => exact h
  | seq first second ihFirst ihSecond =>
    obtain ⟨hfreeFirst, hfreeSecond⟩ := Bool.and_eq_true_iff.mp hfree
    obtain ⟨front, back, hpart, hfirst, hsecond⟩ := h
    exact ⟨front, back, hpart, ihFirst hfreeFirst hfirst, ihSecond hfreeSecond hsecond⟩
  | optional inner ih => exact h.imp_left (ih hfree)
  | check holds => cases hfree

/-- An expression between two assertions. -/
theorem reads_between {before after : Option α → Option α → Bool} (hfree : r.unchecked = true) :
    (seq (check before) (seq r (check after))).Reads prev part next ↔
      before prev (part.head?.or next) = true ∧ r.Reads none part none ∧
        after (last prev part) next = true := by
  constructor
  · rintro ⟨_, back, rfl, ⟨rfl, hbefore⟩, body, _, rfl, hbody, rfl, hafter⟩
    rw [List.append_nil, List.nil_append] at *
    exact ⟨hbefore, reads_elsewhere hfree hbody, hafter⟩
  · intro ⟨hbefore, hbody, hafter⟩
    exact ⟨[], part, rfl, ⟨rfl, hbefore⟩, part, [], (List.append_nil part).symm,
      reads_elsewhere hfree hbody, rfl, hafter⟩

end Parts

/-! ## 2. Substitution -/

/-- The match at a place, and what follows it. -/
def find (r : Regex α) : Pattern α Unit := fun prev s =>
  (r.lengths prev s).head?.map fun n => ((), s.drop n)

/-- The matches from left to right. -/
def reading (r : Regex α) (s : List α) : List (Piece α Unit) := scan r.find (s.length + 1) none s

/-- `re.sub`: each match replaced. -/
def sub (r : Regex α) (w s : List α) : List α := put w (r.reading s)

/-- Somewhere in the text there is a match. -/
def Contains (r : Regex α) (s : List α) : Prop :=
  ∃ front part back, s = front ++ (part ++ back) ∧ r.Reads front.getLast? part back.head?

/-- No match is empty. -/
def Solid (r : Regex α) : Prop := ∀ prev next, ¬ r.Reads prev [] next

section Substitution

variable {q r : Regex α} {prev : Option α} {w s rest : List α} {u : Unit}

theorem find_eq_none_iff : r.find prev s = none ↔
    ∀ part rest, s = part ++ rest → ¬ r.Reads prev part rest.head? := by
  unfold find
  rw [Option.map_eq_none_iff, List.head?_eq_none_iff]
  constructor
  · rintro hnone part rest rfl hreads
    have hmem := mem_lengths_iff.mpr hreads
    rw [hnone] at hmem
    exact absurd hmem List.not_mem_nil
  · intro hnone
    refine List.eq_nil_iff_forall_not_mem.mpr fun n hn => ?_
    refine hnone (s.take n) (s.drop n) (List.take_append_drop n s).symm ?_
    refine mem_lengths_iff.mp ?_
    rw [List.length_take_of_le (le_length hn), List.take_append_drop]
    exact hn

theorem reads_of_find (h : r.find prev s = some (u, rest)) :
    ∃ part, s = part ++ rest ∧ r.Reads prev part rest.head? := by
  obtain ⟨n, hn, heq⟩ := Option.map_eq_some_iff.mp h
  obtain rfl := (Prod.mk.inj heq).2
  have hmem := List.mem_of_mem_head? hn
  refine ⟨s.take n, (List.take_append_drop n s).symm, mem_lengths_iff.mp ?_⟩
  rw [List.length_take_of_le (le_length hmem), List.take_append_drop]
  exact hmem

theorem Solid.consumes (h : r.Solid) : Consumes r.find := by
  intro prev s u rest hfind
  obtain ⟨part, htext, hreads⟩ := reads_of_find hfind
  refine ⟨part, ?_, htext⟩
  rintro rfl
  exact h _ _ hreads

/-- A hit of the reading is a match. -/
theorem reads_of_hit {left right : List (Piece α Unit)} {part : List α}
    (h : Scanned r.find prev (left ++ .hit part u :: right)) :
    r.Reads (last prev (text left)) part (text right).head? := by
  obtain ⟨part', htext, hreads⟩ := reads_of_find h.next_hit
  rwa [← List.append_cancel_right htext] at hreads

theorem last_none (s : List α) : last none s = s.getLast? := Option.or_none

theorem scanned_reading (hsolid : r.Solid) (s : List α) :
    Scanned r.find none (r.reading s) ∧ text (r.reading s) = s :=
  scanned_scan hsolid.consumes (Nat.lt_succ_self _)

/-- **A text without a match stays as it is.** -/
theorem sub_eq_self (hsolid : r.Solid) (h : ¬ r.Contains s) : r.sub w s = s := by
  obtain ⟨hscanned, htext⟩ := scanned_reading hsolid s
  unfold sub
  rw [put_eq_text, htext]
  refine List.eq_nil_iff_forall_not_mem.mpr fun u hu => ?_
  obtain ⟨part, hhit⟩ := mem_readings.mp hu
  obtain ⟨left, right, hpieces⟩ := List.append_of_mem hhit
  rw [hpieces] at hscanned htext
  refine h ⟨text left, part, text right, ?_, ?_⟩
  · rw [← htext, text_append, text_hit]
  · rw [← last_none]
    exact reads_of_hit hscanned

/-! ## 3. What a substitution leaves -/

/-- What is put for the matches of `q` keeps the matches of `r` apart: none goes over its ends,
    lies inside it, or comes about because it is there and not the match of `q`. -/
structure Separates (q r : Regex α) (w : List α) : Prop where
  filled : w ≠ []
  first : ∀ a ∈ w.head?, ∀ prev part next, r.Reads prev part next → a ∉ part
  final : ∀ a ∈ w.getLast?, ∀ prev part next, r.Reads prev part next → a ∉ part
  outside : ∀ prev part next, r.Reads prev part next → ∃ a ∈ part, a ∉ w
  /-- a match that begins behind `w` begins there, or later, without it -/
  after : ∀ prev hit a part next, q.Reads prev hit (some a) → r.Reads w.getLast? (a :: part) next →
    ∃ skipped rest, a :: part = skipped ++ rest ∧
      r.Reads (last (last prev hit) skipped) rest next
  /-- a match that ends before `w` ends there without it -/
  before : ∀ prev part z a hit next, q.Reads (some z) (a :: hit) next →
    r.Reads prev (part ++ [z]) w.head? → r.Reads prev (part ++ [z]) (some a)

theorem Separates.ne (hsep : Separates q r w) {part : List α} {prev next : Option α}
    (h : r.Reads prev part next) : part ≠ [] := by
  rintro rfl
  obtain ⟨a, ha, _⟩ := hsep.outside _ _ _ h
  exact absurd ha List.not_mem_nil

/-- A match in the front of a text is one in the text, or it goes up to the end of the front. -/
theorem contains_front {front back : List α} (h : r.Contains front) :
    r.Contains (front ++ back) ∨
      ∃ before part, front = before ++ part ∧ r.Reads before.getLast? part none := by
  obtain ⟨before, part, after, rfl, hreads⟩ := h
  cases after with
  | nil => exact .inr ⟨before, part, by rw [List.append_nil], hreads⟩
  | cons a after =>
    refine .inl ⟨before, part, a :: after ++ back, ?_, hreads⟩
    simp only [List.append_assoc]

section Left

variable {left right pieces : List (Piece α Unit)} {part : List α} {next : Option α}

/-- What follows a match, with `w` and without it. -/
theorem Separates.reads_before (hsep : Separates q r w)
    (hscanned : Scanned q.find none (left ++ (part.map .plain ++ right)))
    (h : r.Reads prev part (put w right).head?) : r.Reads prev part (text right).head? := by
  cases right with
  | nil => exact h
  | cons piece right =>
    cases piece with
    | plain a => exact h
    | hit hit u =>
      have hmatch : q.Reads (last none (text (left ++ part.map .plain))) hit (text right).head? := by
        refine reads_of_hit (u := u) ?_
        rwa [List.append_assoc]
      obtain ⟨part, z, rfl⟩ := (List.eq_nil_or_concat' part).resolve_left (hsep.ne h)
      have hne : hit ≠ [] := by
        rw [← List.append_assoc] at hscanned
        cases hscanned.ending with
        | hit hne _ _ => exact hne
      obtain ⟨a, hit, rfl⟩ := List.exists_cons_of_ne_nil hne
      rw [text_append, text_map_plain, ← List.append_assoc, last_append, last_singleton] at hmatch
      rw [put_hit, List.head?_append_of_ne_nil _ hsep.filled] at h
      exact hsep.before _ _ _ _ _ _ hmatch h

/-- What precedes a match, with `w` and without it. -/
theorem Separates.reads_after (hsep : Separates q r w)
    (hscanned : Scanned q.find none (left ++ (part.map .plain ++ right)))
    (h : r.Reads (put w left).getLast? part next) :
    ∃ skipped rest, part = skipped ++ rest ∧ r.Reads (text left ++ skipped).getLast? rest next := by
  rcases List.eq_nil_or_concat' left with rfl | ⟨left, piece, rfl⟩
  · exact ⟨[], part, rfl, h⟩
  · cases piece with
    | plain a =>
      refine ⟨[], part, rfl, ?_⟩
      rw [put_append, put_plain, put_nil, List.getLast?_concat] at h
      rw [text_append, text_plain, text_nil, List.append_nil, List.getLast?_concat]
      exact h
    | hit hit u =>
      rw [put_append, put_hit, put_nil, List.append_nil,
        List.getLast?_append_of_ne_nil _ hsep.filled] at h
      obtain ⟨a, part, rfl⟩ := List.exists_cons_of_ne_nil (hsep.ne h)
      rw [List.append_assoc] at hscanned
      have hmatch : q.Reads (last none (text left)) hit (some a) := reads_of_hit hscanned
      obtain ⟨skipped, rest, hpart, hreads⟩ := hsep.after _ _ _ _ _ hmatch h
      refine ⟨skipped, rest, hpart, ?_⟩
      rw [text_append, text_hit, text_nil, List.append_nil, ← last_none, last_append, last_append]
      exact hreads

/-- **A match in the new text** is one at plain elements of the old text. -/
theorem contains_of_put (hsep : Separates q r w) (hscanned : Scanned q.find none pieces)
    (h : r.Contains (put w pieces)) :
    ∃ left part right, pieces = left ++ (part.map .plain ++ right) ∧ part ≠ [] ∧
      r.Reads (text left).getLast? part (text right).head? := by
  obtain ⟨front, part, back, htext, hreads⟩ := h
  rcases put_eq_append hsep.filled (hsep.ne hreads) (fun a ha => hsep.first a ha _ _ _ hreads)
    (fun a ha => hsep.final a ha _ _ _ hreads) htext with
    ⟨left, before, after, hin, _⟩ | ⟨left, right, hpieces, rfl, rfl⟩
  · obtain ⟨a, ha, houtside⟩ := hsep.outside _ _ _ hreads
    refine absurd ?_ houtside
    rw [hin]
    exact List.mem_append_right _ (List.mem_append_left _ ha)
  · rw [hpieces] at hscanned
    obtain ⟨skipped, rest, rfl, hrest⟩ :=
      hsep.reads_after hscanned (hsep.reads_before hscanned hreads)
    refine ⟨left ++ skipped.map .plain, rest, right, ?_, hsep.ne hrest, ?_⟩
    · rw [hpieces, List.map_append, List.append_assoc, List.append_assoc]
    · rw [text_append, text_map_plain]
      exact hrest

end Left

theorem contains_of_sub (hsolid : q.Solid) (hsep : Separates q r w)
    (h : r.Contains (q.sub w s)) : r.Contains s := by
  obtain ⟨hscanned, htext⟩ := scanned_reading hsolid s
  obtain ⟨left, part, right, hpieces, _, hreads⟩ := contains_of_put hsep hscanned h
  refine ⟨text left, part, text right, ?_, hreads⟩
  rw [← htext, hpieces, text_append, text_append, text_map_plain]

/-- **A substitution leaves no match behind**, if what is put does not make new ones. -/
theorem not_contains_sub (hsolid : r.Solid) (hsep : Separates r r w) :
    ¬ r.Contains (r.sub w s) := by
  intro h
  obtain ⟨hscanned, _⟩ := scanned_reading hsolid s
  obtain ⟨left, part, right, hpieces, hne, hreads⟩ := contains_of_put hsep hscanned h
  obtain ⟨a, part, rfl⟩ := List.exists_cons_of_ne_nil hne
  rw [hpieces] at hscanned
  have hnone := find_eq_none_iff.mp hscanned.next_plain (a :: part) (text right)
  rw [last_none] at hnone
  refine hnone ?_ hreads
  show a :: text (part.map .plain ++ right) = _
  rw [text_append, text_map_plain]
  rfl

end Substitution

end Regex

end Helpdesk
