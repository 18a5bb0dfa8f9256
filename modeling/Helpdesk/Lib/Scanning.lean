/-
  File:      Helpdesk/Lib/Scanning.lean
  Subject:   A text read once from left to right with a pattern.

  At each place the pattern either reads a part of the text, and the reading goes on
  behind that part, or it does not, and the element of the place is left plain. What
  comes before a place is known to the pattern by its last element, as it is to the
  zero-width assertions of a regular expression. `Scanned` says which pieces are the
  reading of their text; a substitution puts something in for the hits and keeps the
  plain elements, `findall` lists the hits.

  * `Scanned.unique`: a text has one reading;
  * `Scanned.ending`: the end of a reading is the reading of the end;
  * `Scanned.append`: the reading of two texts one after the other;
  * `text_eq_append_cons`, `piece_unique`: the piece a place is in;
  * `kept_eq_append_pair`: two plain elements next to each other once the hits are gone.
-/
import Mathlib.Data.List.Basic
import Mathlib.Tactic.Common

namespace Helpdesk.Scanning

variable {α τ : Type}

/-! ## 1. Pieces -/

/-- An element that is left, or a part with what is read there. -/
inductive Piece (α τ : Type) where
  | plain (a : α)
  | hit (part : List α) (reading : τ)
  deriving DecidableEq, Repr

namespace Piece

def source : Piece α τ → List α
  | plain a => [a]
  | hit part _ => part

def plain? : Piece α τ → Option α
  | plain a => some a
  | hit _ _ => none

def reading? : Piece α τ → Option τ
  | plain _ => none
  | hit _ reading => some reading

end Piece

/-- The text the pieces are read from. -/
def text (pieces : List (Piece α τ)) : List α := pieces.flatMap Piece.source

/-- What is left without the hits. -/
def kept (pieces : List (Piece α τ)) : List α := pieces.filterMap Piece.plain?

def readings (pieces : List (Piece α τ)) : List τ := pieces.filterMap Piece.reading?

section Lists

variable {a b : α} {part : List α} {reading : τ} {pieces front back : List (Piece α τ)}

@[simp] theorem text_nil : text ([] : List (Piece α τ)) = [] := rfl

@[simp] theorem text_plain : text (.plain a :: pieces) = a :: text pieces := rfl

@[simp] theorem text_hit : text (.hit part reading :: pieces) = part ++ text pieces := rfl

@[simp] theorem text_append : text (front ++ back) = text front ++ text back :=
  List.flatMap_append

@[simp] theorem kept_nil : kept ([] : List (Piece α τ)) = [] := rfl

@[simp] theorem kept_plain : kept (.plain a :: pieces) = a :: kept pieces := rfl

@[simp] theorem kept_hit : kept (.hit part reading :: pieces) = kept pieces := rfl

@[simp] theorem kept_append : kept (front ++ back) = kept front ++ kept back :=
  List.filterMap_append

@[simp] theorem readings_nil : readings ([] : List (Piece α τ)) = [] := rfl

@[simp] theorem readings_plain : readings (.plain a :: pieces) = readings pieces := rfl

@[simp] theorem readings_hit :
    readings (.hit part reading :: pieces) = reading :: readings pieces := rfl

theorem mem_readings : reading ∈ readings pieces ↔ ∃ part, .hit part reading ∈ pieces := by
  constructor
  · intro h
    obtain ⟨piece, hmem, heq⟩ := List.mem_filterMap.mp h
    cases piece with
    | plain a => cases heq
    | hit part r => cases heq; exact ⟨part, hmem⟩
  · intro ⟨part, h⟩
    exact List.mem_filterMap.mpr ⟨_, h, rfl⟩

/-- A plain piece is its element. -/
theorem plain_source {before after : List α} (h : (.plain b : Piece α τ).source = before ++ a :: after) :
    before = [] ∧ b = a ∧ after = [] := by
  cases before with
  | nil =>
    obtain ⟨rfl, hafter⟩ := List.cons.inj h
    exact ⟨rfl, rfl, hafter.symm⟩
  | cons c before => exact absurd (List.cons.inj h).2 (by simp)

/-- The piece an element is in, whatever is put for the pieces. -/
theorem flatMap_eq_append_cons {β : Type} {f : β → List α} {pieces : List β} {front back : List α}
    (h : pieces.flatMap f = front ++ a :: back) :
    ∃ left piece right before after, pieces = left ++ piece :: right ∧
      f piece = before ++ a :: after ∧ front = left.flatMap f ++ before ∧
      back = after ++ right.flatMap f := by
  induction pieces generalizing front with
  | nil => cases front <;> cases h
  | cons piece pieces ih =>
    rw [List.flatMap_cons] at h
    rcases List.append_eq_append_iff.mp h with ⟨middle, hfront, hrest⟩ | ⟨middle, hsource, hback⟩
    · -- the element comes after the first piece
      obtain ⟨left, piece', right, before, after, hpieces, hin, hmiddle, hend⟩ := ih hrest
      refine ⟨piece :: left, piece', right, before, after, ?_, hin, ?_, hend⟩
      · rw [hpieces, List.cons_append]
      · rw [hfront, hmiddle, List.flatMap_cons, List.append_assoc]
    · cases middle with
      | nil =>
        rw [List.append_nil] at hsource
        rw [List.nil_append] at hback
        have hnext : pieces.flatMap f = [] ++ a :: back := hback.symm
        obtain ⟨left, piece', right, before, after, hpieces, hin, hmiddle, hend⟩ := ih hnext
        refine ⟨piece :: left, piece', right, before, after, ?_, hin, ?_, hend⟩
        · rw [hpieces, List.cons_append]
        · rw [List.flatMap_cons, List.append_assoc, ← hmiddle, List.append_nil, hsource]
      | cons c after =>
        rw [List.cons_append] at hback
        obtain ⟨rfl, rfl⟩ := List.cons.inj hback
        exact ⟨[], piece, pieces, front, after, rfl, hsource, rfl, rfl⟩

/-- The piece an element of the text is in. -/
theorem text_eq_append_cons {pieces : List (Piece α τ)} {front back : List α}
    (h : text pieces = front ++ a :: back) :
    ∃ left piece right before after, pieces = left ++ piece :: right ∧
      piece.source = before ++ a :: after ∧ front = text left ++ before ∧
      back = after ++ text right :=
  flatMap_eq_append_cons h

/-- The pieces before a place are part of those before a later one. -/
theorem text_lt_of_left_lt {left right left' right' : List (Piece α τ)} {piece piece' : Piece α τ}
    (h : left ++ piece :: right = left' ++ piece' :: right') (hlt : left.length < left'.length) :
    (text left).length + piece.source.length ≤ (text left').length := by
  have hleft : left ++ [piece] <+: left ++ piece :: right :=
    ⟨right, by rw [List.append_assoc]; rfl⟩
  have hleft' : left' <+: left ++ piece :: right := ⟨piece' :: right', h.symm⟩
  have hprefix : left ++ [piece] <+: left' :=
    List.prefix_of_prefix_length_le hleft hleft' (by rw [List.length_append]; exact hlt)
  obtain ⟨more, rfl⟩ := hprefix
  simp only [text, List.flatMap_append, List.flatMap_cons, List.flatMap_nil, List.length_append]
  omega

/-- **A place of the text is in one piece.** -/
theorem piece_unique {left right left' right' : List (Piece α τ)} {piece piece' : Piece α τ} {n : Nat}
    (h : left ++ piece :: right = left' ++ piece' :: right')
    (hlow : (text left).length ≤ n) (hhigh : n < (text left).length + piece.source.length)
    (hlow' : (text left').length ≤ n) (hhigh' : n < (text left').length + piece'.source.length) :
    left = left' ∧ piece = piece' ∧ right = right' := by
  have hlength : left.length = left'.length := by
    rcases Nat.lt_trichotomy left.length left'.length with hlt | heq | hgt
    · have := text_lt_of_left_lt h hlt
      omega
    · exact heq
    · have := text_lt_of_left_lt h.symm hgt
      omega
  obtain ⟨rfl, hrest⟩ := List.append_inj h hlength
  obtain ⟨rfl, rfl⟩ := List.cons.inj hrest
  exact ⟨rfl, rfl, rfl⟩

/-- The plain piece of an element that is left. -/
theorem kept_eq_append_cons {pieces : List (Piece α τ)} {front back : List α}
    (h : kept pieces = front ++ a :: back) :
    ∃ left right, pieces = left ++ .plain a :: right ∧ kept left = front ∧ kept right = back := by
  obtain ⟨left, rest, rfl, hleft, hrest⟩ := List.filterMap_eq_append_iff.mp h
  obtain ⟨hits, piece, right, rfl, hhits, hpiece, hright⟩ := List.filterMap_eq_cons_iff.mp hrest
  refine ⟨left ++ hits, right, ?_, ?_, hright⟩
  · cases piece with
    | plain b => cases hpiece; rw [List.append_assoc]
    | hit part reading => cases hpiece
  · rw [kept_append, show kept hits = [] from List.filterMap_eq_nil_iff.mpr hhits, List.append_nil]
    exact hleft

/-- Two elements that are next to each other once the hits are gone: there are none but
    hits between them. -/
theorem kept_eq_append_pair {pieces : List (Piece α τ)} {front back : List α}
    (h : kept pieces = front ++ a :: b :: back) :
    ∃ left middle right, pieces = left ++ .plain a :: (middle ++ .plain b :: right) ∧
      kept left = front ∧ kept middle = [] ∧ kept right = back := by
  obtain ⟨left, rest, rfl, hleft, hrest⟩ := kept_eq_append_cons h
  obtain ⟨middle, right, rfl, hmiddle, hright⟩ := kept_eq_append_cons (hrest.trans (List.nil_append _).symm)
  exact ⟨left, middle, right, rfl, hleft, hmiddle, hright⟩

/-- Without hits all of the text is left. -/
theorem text_eq_kept (h : readings pieces = []) : text pieces = kept pieces := by
  induction pieces with
  | nil => rfl
  | cons piece pieces ih =>
    cases piece with
    | plain a => rw [text_plain, kept_plain, ih h]
    | hit part reading => cases h

/-- Without plain elements the pieces are hits. -/
theorem eq_hit_of_kept_nil (h : kept pieces = []) {piece : Piece α τ} (hmem : piece ∈ pieces) :
    ∃ part reading, piece = .hit part reading := by
  cases piece with
  | plain a => exact absurd (List.filterMap_eq_nil_iff.mp h _ hmem) (Option.some_ne_none a)
  | hit part reading => exact ⟨part, reading, rfl⟩

end Lists

/-! ## 2. Readings -/

/-- What a pattern reads at a place, and what follows; it sees the element before it. -/
abbrev Pattern (α τ : Type) := Option α → List α → Option (τ × List α)

/-- The element before what follows a part. -/
def last (prev : Option α) (part : List α) : Option α := part.getLast?.or prev

@[simp] theorem last_nil (prev : Option α) : last prev [] = prev := rfl

@[simp] theorem last_singleton (prev : Option α) (a : α) : last prev [a] = some a := rfl

theorem last_append (prev : Option α) (front back : List α) :
    last prev (front ++ back) = last (last prev front) back := by
  rw [last, last, last, List.getLast?_append, Option.or_assoc]

theorem last_cons (prev : Option α) (a : α) (back : List α) :
    last prev (a :: back) = last (some a) back := by
  rw [← List.singleton_append, last_append, last_singleton]

/-- **The reading of a text.** -/
inductive Scanned (next : Pattern α τ) : Option α → List (Piece α τ) → Prop where
  | nil {prev : Option α} : Scanned next prev []
  | plain {prev : Option α} {a : α} {pieces : List (Piece α τ)}
      (hnone : next prev (a :: text pieces) = none) (hrest : Scanned next (some a) pieces) :
      Scanned next prev (.plain a :: pieces)
  | hit {prev : Option α} {part : List α} {reading : τ} {pieces : List (Piece α τ)}
      (hne : part ≠ [])
      (hsome : next prev (part ++ text pieces) = some (reading, text pieces))
      (hrest : Scanned next (last prev part) pieces) :
      Scanned next prev (.hit part reading :: pieces)

section Readings

variable {next : Pattern α τ} {prev : Option α} {pieces pieces' front back : List (Piece α τ)}

/-- **A text has one reading.** -/
theorem Scanned.unique (h : Scanned next prev pieces) (h' : Scanned next prev pieces')
    (htext : text pieces = text pieces') : pieces = pieces' := by
  induction h generalizing pieces' with
  | nil =>
    cases h' with
    | nil => rfl
    | plain => cases htext
    | hit hne =>
      rw [text_nil, text_hit, eq_comm, List.append_eq_nil_iff] at htext
      exact absurd htext.1 hne
  | plain hnone _ ih =>
    cases h' with
    | nil => cases htext
    | plain _ hrest' =>
      obtain ⟨rfl, hrest⟩ := List.cons.inj htext
      rw [ih hrest' hrest]
    | hit _ hsome' =>
      rw [← text_plain, htext, text_hit, hsome'] at hnone
      cases hnone
  | hit hne hsome _ ih =>
    cases h' with
    | nil =>
      rw [text_nil, text_hit, List.append_eq_nil_iff] at htext
      exact absurd htext.1 hne
    | plain hnone' _ =>
      rw [← text_plain, ← htext, text_hit, hsome] at hnone'
      cases hnone'
    | hit _ hsome' hrest' =>
      have hread := hsome
      rw [← text_hit, htext, text_hit, hsome'] at hread
      obtain ⟨rfl, hrest⟩ := Prod.mk.inj (Option.some.inj hread)
      rw [text_hit, text_hit, hrest] at htext
      obtain rfl := List.append_cancel_right htext
      rw [ih hrest' hrest.symm]

/-- **The end of a reading is the reading of the end.** -/
theorem Scanned.ending (h : Scanned next prev (front ++ back)) :
    Scanned next (last prev (text front)) back := by
  induction front generalizing prev with
  | nil => exact h
  | cons piece front ih =>
    cases h with
    | plain _ hrest => rw [text_plain, last_cons]; exact ih hrest
    | hit _ _ hrest => rw [text_hit, last_append]; exact ih hrest

/-- At a plain element the pattern reads nothing. -/
theorem Scanned.next_plain {a : α} (h : Scanned next prev (front ++ .plain a :: back)) :
    next (last prev (text front)) (a :: text back) = none := by
  cases h.ending with
  | plain hnone _ => exact hnone

/-- Each hit is what the pattern reads there. -/
theorem Scanned.next_hit {part : List α} {reading : τ}
    (h : Scanned next prev (front ++ .hit part reading :: back)) :
    next (last prev (text front)) (part ++ text back) = some (reading, text back) := by
  cases h.ending with
  | hit _ hsome _ => exact hsome

/-- Readings of two texts are one of both, if nothing that is read goes over their border. -/
theorem Scanned.append (h : Scanned next prev front) (hback : Scanned next (last prev (text front)) back)
    (hborder : ∀ prev a s, next prev (a :: s ++ text back) =
      (next prev (a :: s)).map fun found => (found.1, found.2 ++ text back)) :
    Scanned next prev (front ++ back) := by
  induction h with
  | nil => exact hback
  | plain hnone _ ih =>
    rw [List.cons_append]
    refine .plain ?_ (ih ?_)
    · rw [text_append, ← List.cons_append, hborder, hnone]
      rfl
    · rwa [text_plain, last_cons] at hback
  | @hit prev part reading pieces hne hsome _ ih =>
    rw [List.cons_append]
    refine .hit hne ?_ (ih ?_)
    · obtain ⟨a, part, rfl⟩ := List.exists_cons_of_ne_nil hne
      rw [text_append, ← List.append_assoc, List.cons_append, hborder, ← List.cons_append, hsome]
      rfl
    · rwa [text_hit, last_append] at hback

/-- A part that is read is not empty, and what follows it is the rest. -/
def Consumes (next : Pattern α τ) : Prop :=
  ∀ prev s reading rest, next prev s = some (reading, rest) → ∃ part, part ≠ [] ∧ s = part ++ rest

/-- **Each text has a reading**, if the pattern goes on. -/
theorem exists_scanned (hnext : Consumes next) (prev : Option α) (s : List α) :
    ∃ pieces, text pieces = s ∧ Scanned next prev pieces := by
  match s with
  | [] => exact ⟨[], rfl, .nil⟩
  | a :: s =>
    cases h : next prev (a :: s) with
    | none =>
      obtain ⟨pieces, htext, hrest⟩ := exists_scanned hnext (some a) s
      subst htext
      exact ⟨.plain a :: pieces, rfl, .plain h hrest⟩
    | some found =>
      obtain ⟨reading, rest⟩ := found
      obtain ⟨part, hne, hs⟩ := hnext _ _ _ _ h
      have hlt : rest.length < (a :: s).length := by
        rw [hs, List.length_append]
        have := List.length_pos_of_ne_nil hne
        omega
      have hle : rest.length ≤ s.length := Nat.le_of_lt_succ hlt
      obtain ⟨pieces, htext, hrest⟩ := exists_scanned hnext (last prev part) rest
      subst htext
      refine ⟨.hit part reading :: pieces, hs.symm, .hit hne ?_ hrest⟩
      rw [← hs, h]
termination_by s.length

end Readings

/-! ## 3. Substitutions -/

/-- The reading of a text, computed; the number is more than the text's length. -/
def scan (next : Pattern α τ) : Nat → Option α → List α → List (Piece α τ)
  | 0, _, _ => []
  | _ + 1, _, [] => []
  | n + 1, prev, a :: s =>
      match next prev (a :: s) with
      | none => .plain a :: scan next n (some a) s
      | some (reading, rest) =>
          let part := (a :: s).take ((a :: s).length - rest.length)
          .hit part reading :: scan next n (last prev part) rest

/-- Something is put for a hit. -/
def Piece.replaced (w : List α) : Piece α τ → List α
  | plain a => [a]
  | hit _ _ => w

/-- Something is put for the hits. -/
def put (w : List α) (pieces : List (Piece α τ)) : List α := pieces.flatMap (Piece.replaced w)

section Substitutions

variable {next : Pattern α τ} {w : List α} {pieces front back : List (Piece α τ)} {a : α}

theorem scanned_scan (hnext : Consumes next) : ∀ {n : Nat} {prev : Option α} {s : List α},
    s.length < n → Scanned next prev (scan next n prev s) ∧ text (scan next n prev s) = s
  | 0, _, _, h => absurd h (Nat.not_lt_zero _)
  | _ + 1, prev, [], _ => ⟨.nil, rfl⟩
  | n + 1, prev, a :: s, h => by
    rw [List.length_cons] at h
    rw [scan]
    cases hread : next prev (a :: s) with
    | none =>
      have hscan : Scanned next (some a) (scan next n (some a) s) ∧
          text (scan next n (some a) s) = s := scanned_scan hnext (by omega)
      obtain ⟨hrest, htext⟩ := hscan
      refine ⟨.plain ?_ hrest, ?_⟩
      · rw [htext]
        exact hread
      · rw [text_plain, htext]
    | some found =>
      obtain ⟨reading, rest⟩ := found
      obtain ⟨part, hne, hs⟩ := hnext _ _ _ _ hread
      have htake : (a :: s).take ((a :: s).length - rest.length) = part := by
        rw [hs, List.length_append, Nat.add_sub_cancel, List.take_left]
      have hpart := List.length_pos_of_ne_nil hne
      have hlength : (a :: s).length = part.length + rest.length := by
        rw [hs, List.length_append]
      rw [List.length_cons] at hlength
      dsimp only
      rw [htake]
      have hscan : Scanned next (last prev part) (scan next n (last prev part) rest) ∧
          text (scan next n (last prev part) rest) = rest := scanned_scan hnext (by omega)
      obtain ⟨hrest, htext⟩ := hscan
      refine ⟨.hit hne ?_ hrest, ?_⟩
      · rw [htext, ← hs]
        exact hread
      · rw [text_hit, htext, hs]

@[simp] theorem put_nil : put w ([] : List (Piece α τ)) = [] := rfl

@[simp] theorem put_plain : put w (.plain a :: pieces) = a :: put w pieces := rfl

@[simp] theorem put_hit {part : List α} {reading : τ} :
    put w (.hit part reading :: pieces) = w ++ put w pieces := rfl

@[simp] theorem put_append : put w (front ++ back) = put w front ++ put w back :=
  List.flatMap_append

@[simp] theorem text_map_plain (part : List α) :
    text (part.map (Piece.plain : α → Piece α τ)) = part := by
  induction part with
  | nil => rfl
  | cons a part ih => rw [List.map_cons, text_plain, ih]

/-- Without hits nothing is put. -/
theorem put_eq_text (h : readings pieces = []) : put w pieces = text pieces := by
  induction pieces with
  | nil => rfl
  | cons piece pieces ih =>
    cases piece with
    | plain a => rw [put_plain, text_plain, ih h]
    | hit part reading => cases h

/-- **A part of the new text without the ends of what is put** lies inside what is put, or it is
    left from the text. -/
theorem put_eq_append {part front back : List α} (hw : w ≠ []) (hne : part ≠ [])
    (hhead : ∀ a ∈ w.head?, a ∉ part) (hlast : ∀ a ∈ w.getLast?, a ∉ part)
    (h : put w pieces = front ++ (part ++ back)) :
    (∃ (left : List (Piece α τ)) (before after : List α), w = before ++ (part ++ after) ∧
      front = put w left ++ before) ∨
      ∃ left right : List (Piece α τ), pieces = left ++ (part.map .plain ++ right) ∧
        front = put w left ∧ back = put w right := by
  induction part generalizing front with
  | nil => exact absurd rfl hne
  | cons a part ih =>
    by_cases hmore : part = []
    · subst hmore
      obtain ⟨left, piece, right, before, after, hpieces, hin, hfront, hback⟩ :=
        flatMap_eq_append_cons h
      cases piece with
      | plain b =>
        obtain ⟨rfl, rfl, rfl⟩ := plain_source (τ := τ) hin
        rw [List.append_nil] at hfront
        exact .inr ⟨left, right, hpieces, hfront, hback⟩
      | hit source reading => exact .inl ⟨left, before, after, hin, hfront⟩
    · have hnext : put w pieces = (front ++ [a]) ++ (part ++ back) := by
        rw [h, List.append_assoc]
        rfl
      rcases ih hmore (fun c hc hmem => hhead c hc (List.mem_cons_of_mem a hmem))
        (fun c hc hmem => hlast c hc (List.mem_cons_of_mem a hmem)) hnext with
        ⟨left, before, after, hin, hfront⟩ | ⟨left, right, hpieces, hfront, hback⟩
      · -- the element before it is put with it
        left
        rcases List.eq_nil_or_concat' before with rfl | ⟨before, b, rfl⟩
        · obtain ⟨c, cs, rfl⟩ := List.exists_cons_of_ne_nil hmore
          exact absurd (List.mem_cons_of_mem a List.mem_cons_self)
            (hhead c (by rw [hin]; rfl))
        · rw [← List.append_assoc] at hfront
          obtain ⟨rfl, hb⟩ := List.append_inj' hfront rfl
          obtain rfl := List.head_eq_of_cons_eq hb
          exact ⟨left, before, after, by rw [hin, List.append_assoc]; rfl, rfl⟩
      · right
        rcases List.eq_nil_or_concat' left with rfl | ⟨left, piece, rfl⟩
        · exact absurd hfront (by simp)
        · rw [put_append] at hfront
          cases piece with
          | plain b =>
            obtain ⟨rfl, hb⟩ := List.append_inj' hfront rfl
            obtain rfl := List.head_eq_of_cons_eq hb
            exact ⟨left, right, by rw [hpieces, List.append_assoc]; rfl, rfl, hback⟩
          | hit source reading =>
            obtain ⟨body, b, rfl⟩ := (List.eq_nil_or_concat' w).resolve_left hw
            rw [put_hit, put_nil, List.append_nil, ← List.append_assoc] at hfront
            obtain rfl := List.head_eq_of_cons_eq (List.append_inj' hfront rfl).2
            exact absurd List.mem_cons_self (hlast a List.getLast?_concat)

end Substitutions

end Helpdesk.Scanning
