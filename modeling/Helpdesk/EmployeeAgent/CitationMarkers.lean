/-
  File:      Helpdesk/EmployeeAgent/CitationMarkers.lean
  Subject:   Which markers the text of an answer has.

  The markers of the provider are taken out once, and the service writes its own before
  what is left. A marker has no bracket inside, so none of them overlap and no marker of
  one to three digits stays; but brackets around digits and markers close up when the
  markers go, and longer numbers are not taken out at all.

  * `withoutMarkers_eq`: the removal as a reading of the text;
  * `markers_withoutMarkers_iff`: when no marker is left;
  * `answer_markers_law`: the markers of an answer are the labels of its citations exactly
    where the provider's text forms none; `nested_marker_forms` is an answer with one more.
-/
import Helpdesk.EmployeeAgent.Stream
import Helpdesk.Lib.Grouping
import Helpdesk.Lib.Scanning
import Helpdesk.Python.Words
import Mathlib.Data.List.Infix

namespace Helpdesk.EmployeeAgent

open Helpdesk.Python Helpdesk.Scanning

variable {c : Char} {ds s front back rest : List Char} {prev : Option Char}

/-! ## 1. Markers -/

/-- `\d`. -/
def isDecimal (c : Char) : Bool := (decimalDigit? c).isSome

/-- The digits of a marker. -/
def IsNumber (ds : List Char) : Prop := ds ≠ [] ∧ ∀ d ∈ ds, isDecimal d = true

/-- A marker with its brackets. -/
def bracketed (ds : List Char) : List Char := '[' :: (ds ++ [']'])

/-- The digits of the marker a text begins with, of any number of digits. -/
def marker? : List Char → Option (List Char)
  | [] => none
  | c :: cs =>
      if c = '[' ∧ cs.takeWhile isDecimal ≠ [] ∧ (cs.dropWhile isDecimal).head? = some ']' then
        some (cs.takeWhile isDecimal)
      else none

/-- **The markers of a text**, in order, with the overlapping ones. -/
def markers (s : List Char) : List (List Char) := s.tails.filterMap marker?

/-- The digits of a marker that is taken out. -/
def IsMark (ds : List Char) : Prop := IsNumber ds ∧ ds.length ≤ 3

/-- `_CITATION_MARKER` as a pattern. -/
def citationMarker : Pattern Char Unit
  | _, [] => none
  | _, c :: cs => if c = '[' then (afterMarker? cs).map ((), ·) else none

theorem citationMarker_cons (prev : Option Char) (c : Char) (s : List Char) :
    citationMarker prev (c :: s) = if c = '[' then (afterMarker? s).map ((), ·) else none := rfl

theorem isDecimal_brackets : isDecimal '[' = false ∧ isDecimal ']' = false := by decide

theorem IsNumber.not_bracket (h : ∀ d ∈ ds, isDecimal d = true) : '[' ∉ ds ∧ ']' ∉ ds := by
  constructor
  · exact fun hmem => Bool.noConfusion (isDecimal_brackets.1.symm.trans (h _ hmem))
  · exact fun hmem => Bool.noConfusion (isDecimal_brackets.2.symm.trans (h _ hmem))

theorem marker?_eq_some_iff :
    marker? s = some ds ↔ IsNumber ds ∧ ∃ rest, s = '[' :: (ds ++ ']' :: rest) := by
  cases s with
  | nil =>
    constructor
    · intro h; cases h
    · intro ⟨_, rest, heq⟩; cases heq
  | cons c cs =>
    constructor
    · intro h
      rw [marker?] at h
      split at h
      case isFalse => cases h
      case isTrue hmarker =>
        obtain ⟨rfl, hne, hhead⟩ := hmarker
        obtain rfl := Option.some.inj h
        obtain ⟨rest, hrest⟩ := List.head?_eq_some_iff.mp hhead
        refine ⟨⟨hne, fun d hd => List.mem_takeWhile_imp hd⟩, rest, ?_⟩
        rw [← hrest, List.takeWhile_append_dropWhile]
    · intro ⟨⟨hne, hall⟩, rest, heq⟩
      obtain ⟨rfl, rfl⟩ := List.cons.inj heq
      have htake : (ds ++ ']' :: rest).takeWhile isDecimal = ds := by
        rw [List.takeWhile_append_of_pos hall, List.takeWhile_cons_of_neg (by decide), List.append_nil]
      have hdrop : (ds ++ ']' :: rest).dropWhile isDecimal = ']' :: rest := by
        rw [List.dropWhile_append_of_pos hall, List.dropWhile_cons_of_neg (by decide)]
      rw [marker?, htake, hdrop, if_pos ⟨rfl, hne, rfl⟩]

theorem markers_cons (c : Char) (s : List Char) :
    markers (c :: s) = (marker? (c :: s)).toList ++ markers s := by
  rw [markers, List.tails, List.filterMap_cons]
  cases marker? (c :: s) <;> rfl

theorem mem_markers_iff :
    ds ∈ markers s ↔ IsNumber ds ∧ ∃ front back, s = front ++ '[' :: (ds ++ ']' :: back) := by
  simp only [markers, List.mem_filterMap, List.mem_tails, marker?_eq_some_iff]
  constructor
  · rintro ⟨tail, ⟨front, rfl⟩, hnumber, rest, rfl⟩
    exact ⟨hnumber, front, rest, rfl⟩
  · rintro ⟨hnumber, front, back, rfl⟩
    exact ⟨_, List.suffix_append front _, hnumber, back, rfl⟩

/-- **No marker goes over a character that is neither a digit nor a closing bracket.** -/
theorem markers_append (hdigit : isDecimal c = false) (hbracket : c ≠ ']') :
    markers (front ++ c :: back) = markers front ++ markers (c :: back) := by
  induction front with
  | nil => rfl
  | cons a front ih =>
    have hmarker : marker? (a :: (front ++ c :: back)) = marker? (a :: front) := by
      have htake : (front ++ c :: back).takeWhile isDecimal = front.takeWhile isDecimal := by
        rw [List.takeWhile_append]
        split
        · next h =>
          rw [List.takeWhile_cons_of_neg (by simp [hdigit]), List.append_nil]
          exact ((List.takeWhile_prefix _).eq_of_length h).symm
        · rfl
      have hdrop : (front ++ c :: back).dropWhile isDecimal =
          front.dropWhile isDecimal ++ c :: back := by
        rw [List.dropWhile_append]
        split
        · next h =>
          rw [List.isEmpty_iff.mp h, List.dropWhile_cons_of_neg (by simp [hdigit]), List.nil_append]
        · rfl
      have hhead : (front.dropWhile isDecimal ++ c :: back).head? = some ']' ↔
          (front.dropWhile isDecimal).head? = some ']' := by
        cases front.dropWhile isDecimal with
        | nil => simp [hbracket]
        | cons d more => simp
      rw [marker?, marker?, htake, hdrop]
      simp only [hhead]
    rw [List.cons_append, markers_cons, hmarker, ih, ← List.append_assoc, ← markers_cons]

theorem markers_of_no_bracket (h : '[' ∉ s) : markers s = [] := by
  rw [List.eq_nil_iff_forall_not_mem]
  intro ds hds
  obtain ⟨-, front, back, rfl⟩ := mem_markers_iff.mp hds
  exact h (by simp)

theorem markers_cons_of_ne (h : c ≠ '[') : markers (c :: s) = markers s := by
  rw [markers_cons, marker?, if_neg (fun hc => h hc.1)]
  rfl

theorem markers_append_of_no_bracket (h : '[' ∉ front) : markers (front ++ s) = markers s := by
  induction front with
  | nil => rfl
  | cons c front ih =>
    rw [List.cons_append, markers_cons_of_ne fun hc => h (hc ▸ List.mem_cons_self)]
    exact ih fun hmem => h (List.mem_cons_of_mem c hmem)

theorem markers_bracketed (hnumber : IsNumber ds) : markers (bracketed ds ++ s) = ds :: markers s := by
  have hcons : bracketed ds ++ s = '[' :: (ds ++ ']' :: s) := by
    rw [bracketed, List.cons_append, List.append_assoc]; rfl
  have hends : '[' ∉ ds ++ [']'] := by
    rw [List.mem_append, not_or]
    exact ⟨(IsNumber.not_bracket hnumber.2).1, by decide⟩
  have htail : ds ++ ']' :: s = ds ++ [']'] ++ s := by simp
  rw [hcons, markers_cons, marker?_eq_some_iff.mpr ⟨hnumber, s, rfl⟩, htail,
    markers_append_of_no_bracket hends]
  rfl

/-! ## 2. The removal -/

theorem afterMarker?_eq_some_iff :
    afterMarker? s = some rest ↔ ∃ ds, IsMark ds ∧ s = ds ++ ']' :: rest := by
  rw [afterMarker?_reads]
  exact exists_congr fun ds => by
    rw [IsMark, IsNumber, and_assoc, and_assoc]
    rfl

theorem citationMarker_eq_some_iff :
    citationMarker prev s = some ((), rest) ↔ ∃ ds, IsMark ds ∧ s = bracketed ds ++ rest := by
  have hbracketed : ∀ ds, bracketed ds ++ rest = '[' :: (ds ++ ']' :: rest) := fun ds => by
    rw [bracketed, List.cons_append, List.append_assoc]; rfl
  cases s with
  | nil =>
    constructor
    · intro h; cases h
    · intro ⟨ds, _, heq⟩; rw [hbracketed] at heq; cases heq
  | cons c cs =>
    simp only [citationMarker_cons, hbracketed, List.cons.injEq]
    constructor
    · intro h
      split at h
      case isFalse => cases h
      case isTrue hc =>
        obtain ⟨after, hafter, heq⟩ := Option.map_eq_some_iff.mp h
        obtain ⟨-, rfl⟩ := Prod.mk.inj heq
        obtain ⟨ds, hds, rfl⟩ := afterMarker?_eq_some_iff.mp hafter
        exact ⟨ds, hds, hc, rfl⟩
    · rintro ⟨ds, hds, rfl, rfl⟩
      rw [if_pos rfl, afterMarker?_eq_some_iff.mpr ⟨ds, hds, rfl⟩]
      rfl

theorem consumes_citationMarker : Consumes citationMarker := by
  intro prev s reading rest h
  obtain ⟨ds, -, rfl⟩ := citationMarker_eq_some_iff.mp h
  exact ⟨bracketed ds, List.cons_ne_nil _ _, rfl⟩

variable {pieces left middle right : List (Piece Char Unit)}

/-- **`_CITATION_MARKER.sub("", text)` keeps what is plain.** -/
theorem withoutMarkers_eq (h : Scanned citationMarker prev pieces) :
    ∀ n, (Scanning.text pieces).length ≤ n →
      withoutMarkers n (Scanning.text pieces) = Scanning.kept pieces := by
  induction h with
  | nil => intro n _; cases n <;> rfl
  | @plain prev c pieces hnone _ ih =>
    intro n hn
    cases n with
    | zero => cases hn
    | succ n =>
      have hread : (if c = '[' then afterMarker? (Scanning.text pieces) else none) = none := by
        rw [citationMarker_cons] at hnone
        split at hnone
        case isTrue hc => rw [if_pos hc]; exact Option.map_eq_none_iff.mp hnone
        case isFalse hc => rw [if_neg hc]
      rw [text_plain, withoutMarkers, hread, kept_plain]
      exact congrArg (c :: ·) (ih n (Nat.le_of_succ_le_succ hn))
  | @hit prev part reading pieces hne hsome _ ih =>
    intro n hn
    obtain ⟨c, more, rfl⟩ := List.exists_cons_of_ne_nil hne
    rw [text_hit, List.cons_append, List.length_cons, List.length_append] at hn
    cases n with
    | zero => cases hn
    | succ n =>
      have hread : (if c = '[' then afterMarker? (more ++ Scanning.text pieces) else none) =
          some (Scanning.text pieces) := by
        rw [List.cons_append, citationMarker_cons] at hsome
        split at hsome
        case isFalse => cases hsome
        case isTrue hc =>
          obtain ⟨after, hafter, heq⟩ := Option.map_eq_some_iff.mp hsome
          rw [if_pos hc, hafter, (Prod.mk.inj heq).2]
      rw [text_hit, List.cons_append, withoutMarkers, hread, kept_hit]
      exact ih n (by omega)

theorem isMark_of_hit {part : List Char} {u : Unit}
    (h : Scanned citationMarker prev (left ++ .hit part u :: right)) :
    ∃ ds, IsMark ds ∧ part = bracketed ds := by
  obtain ⟨ds, hds, heq⟩ := citationMarker_eq_some_iff.mp h.next_hit
  exact ⟨ds, hds, List.append_cancel_right heq⟩

/-- Nothing that is read goes over an opening bracket. -/
theorem citationMarker_border (prev : Option Char) (a : Char) (s back : List Char) :
    citationMarker prev (a :: s ++ '[' :: back) =
      (citationMarker prev (a :: s)).map fun found => (found.1, found.2 ++ '[' :: back) := by
  cases h : citationMarker prev (a :: s) with
  | some found =>
    obtain ⟨⟨⟩, rest⟩ := found
    obtain ⟨ds, hds, heq⟩ := citationMarker_eq_some_iff.mp h
    refine citationMarker_eq_some_iff.mpr ⟨ds, hds, ?_⟩
    rw [heq, List.append_assoc]
  | none =>
    rw [Option.map_none, ← Option.not_isSome_iff_eq_none, Option.isSome_iff_exists]
    intro ⟨⟨_, rest⟩, hsome⟩
    obtain ⟨ds, hds, heq⟩ := citationMarker_eq_some_iff.mp hsome
    -- the marker ends before the bracket, or has it inside
    rcases List.append_eq_append_iff.mp heq with ⟨more, hmarker, hmore⟩ | ⟨more, hbefore, hmore⟩
    · cases more with
      | nil =>
        have hread : citationMarker prev (bracketed ds) = some ((), []) :=
          citationMarker_eq_some_iff.mpr ⟨ds, hds, (List.append_nil _).symm⟩
        rw [hmarker, List.append_nil, h] at hread
        cases hread
      | cons b more =>
        obtain ⟨rfl, -⟩ := List.cons.inj hmore
        obtain ⟨rfl, hinner⟩ := List.cons.inj hmarker
        have hmem : '[' ∈ ds ++ [']'] := by rw [hinner]; simp
        rcases List.mem_append.mp hmem with hin | hin
        · exact (IsNumber.not_bracket hds.1.2).1 hin
        · revert hin; decide
    · rw [citationMarker_eq_some_iff.mpr ⟨ds, hds, hbefore⟩] at h
      cases h

/-! ## 3. What closes up -/

/-- Between brackets stand digits and markers of one to three digits, with a digit at
    least, and not one to three digits alone. -/
def Forming (s : List Char) : Prop :=
  ∃ front pieces back, s = front ++ '[' :: (Scanning.text pieces ++ ']' :: back) ∧
    IsNumber (Scanning.kept pieces) ∧
    (∀ part u, (.hit part u : Piece Char Unit) ∈ pieces → ∃ ds, IsMark ds ∧ part = bracketed ds) ∧
    (Scanning.readings pieces = [] → 4 ≤ (Scanning.kept pieces).length)

/-- Digits and markers are read as what they are before a closing bracket. -/
theorem scanned_forming (hdigits : ∀ d ∈ Scanning.kept middle, isDecimal d = true)
    (hmarks : ∀ part u, (.hit part u : Piece Char Unit) ∈ middle →
      ∃ ds, IsMark ds ∧ part = bracketed ds)
    (hright : Scanned citationMarker (some ']') right) :
    ∀ prev, Scanned citationMarker prev (middle ++ .plain ']' :: right) := by
  induction middle with
  | nil =>
    intro prev
    refine .plain ?_ hright
    rw [citationMarker_cons, if_neg (by decide)]
  | cons piece middle ih =>
    have hrest := ih
      (fun d hd => hdigits d (by cases piece with
        | plain c => rw [kept_plain]; exact List.mem_cons_of_mem c hd
        | hit part u => exact hd))
      (fun part u hmem => hmarks part u (List.mem_cons_of_mem _ hmem))
    intro prev
    cases piece with
    | plain c =>
      refine .plain ?_ (hrest _)
      have hc : isDecimal c = true := hdigits c (by rw [kept_plain]; exact List.mem_cons_self)
      rw [citationMarker_cons, if_neg]
      rintro rfl
      exact Bool.noConfusion (isDecimal_brackets.1.symm.trans hc)
    | hit part u =>
      obtain ⟨ds, hds, rfl⟩ := hmarks part u List.mem_cons_self
      exact .hit (List.cons_ne_nil _ _) (citationMarker_eq_some_iff.mpr ⟨ds, hds, rfl⟩) (hrest _)

/-- The first character that is no digit. -/
theorem digits_unique {x y : List Char} {d : Char} (hx : ∀ e ∈ x, isDecimal e = true)
    (hy : ∀ e ∈ y, isDecimal e = true) (hc : isDecimal c = false) (hd : isDecimal d = false)
    (h : x ++ c :: front = y ++ d :: back) : x = y ∧ c = d := by
  have htake : ∀ {z : List Char} {e : Char} {rest : List Char}, (∀ e ∈ z, isDecimal e = true) →
      isDecimal e = false → (z ++ e :: rest).takeWhile isDecimal = z := by
    intro z e rest hz he
    rw [List.takeWhile_append_of_pos hz, List.takeWhile_cons_of_neg (by simp [he]), List.append_nil]
  obtain rfl : x = y := by rw [← htake hx hc, h, htake hy hd]
  exact ⟨rfl, (List.cons.inj (List.append_cancel_left h)).1⟩

/-- Digits and markers are digits alone, or the first bracket among them opens. -/
theorem forming_cases (hdigits : ∀ d ∈ Scanning.kept middle, isDecimal d = true)
    (hmarks : ∀ part u, (.hit part u : Piece Char Unit) ∈ middle →
      ∃ ds, IsMark ds ∧ part = bracketed ds) :
    Scanning.readings middle = [] ∨ ∃ ds rest, (∀ d ∈ ds, isDecimal d = true) ∧
      Scanning.text middle = ds ++ '[' :: rest := by
  induction middle with
  | nil => exact .inl rfl
  | cons piece middle ih =>
    have hmarks' := fun part u hmem => hmarks part u (List.mem_cons_of_mem piece hmem)
    cases piece with
    | plain c =>
      have hdigits' := fun d hd => hdigits d (List.mem_cons_of_mem c hd)
      rcases ih hdigits' hmarks' with hnone | ⟨ds, rest, hds, htext⟩
      · exact .inl hnone
      · refine .inr ⟨c :: ds, rest, ?_, ?_⟩
        · exact List.forall_mem_cons.mpr ⟨hdigits c List.mem_cons_self, hds⟩
        · rw [text_plain, htext, List.cons_append]
    | hit part u =>
      obtain ⟨ds, -, rfl⟩ := hmarks part u List.mem_cons_self
      exact .inr ⟨[], ds ++ [']'] ++ Scanning.text middle, by simp, rfl⟩

/-- Before them an opening bracket begins no marker, if they are not one to three digits. -/
theorem afterMarker?_forming (hdigits : ∀ d ∈ Scanning.kept middle, isDecimal d = true)
    (hmarks : ∀ part u, (.hit part u : Piece Char Unit) ∈ middle →
      ∃ ds, IsMark ds ∧ part = bracketed ds)
    (hlong : Scanning.readings middle = [] → 4 ≤ (Scanning.kept middle).length) :
    afterMarker? (Scanning.text middle ++ ']' :: back) = none := by
  rw [← Option.not_isSome_iff_eq_none, Option.isSome_iff_exists]
  intro ⟨rest, hrest⟩
  obtain ⟨ds, hds, heq⟩ := afterMarker?_eq_some_iff.mp hrest
  rcases forming_cases hdigits hmarks with hnone | ⟨ds', rest', hds', htext⟩
  · rw [text_eq_kept hnone] at heq
    obtain ⟨rfl, -⟩ := digits_unique hdigits hds.1.2 isDecimal_brackets.2 isDecimal_brackets.2 heq
    have := hlong hnone
    have := hds.2
    omega
  · rw [htext, List.append_assoc] at heq
    have hopen := digits_unique hds' hds.1.2 isDecimal_brackets.1 isDecimal_brackets.2 heq
    exact absurd hopen.2 (by decide)

/-- **When a marker is left.** -/
theorem markers_kept_iff (h : Scanned citationMarker prev pieces) :
    markers (Scanning.kept pieces) ≠ [] ↔ Forming (Scanning.text pieces) := by
  constructor
  · intro hne
    obtain ⟨ds, hds⟩ := List.exists_mem_of_ne_nil _ hne
    obtain ⟨hnumber, front, back, hkept⟩ := mem_markers_iff.mp hds
    obtain ⟨left, rest, rfl, -, hrest⟩ := kept_eq_append_cons hkept
    obtain ⟨middle, right, rfl, rfl, -⟩ := kept_eq_append_cons hrest
    refine ⟨Scanning.text left, middle, Scanning.text right, by simp, hnumber, ?_, ?_⟩
    · intro part u hmem
      obtain ⟨before, after, rfl⟩ := List.append_of_mem hmem
      have hsplit : left ++ .plain '[' :: (before ++ .hit part u :: after ++ .plain ']' :: right) =
          (left ++ .plain '[' :: before) ++ .hit part u :: (after ++ .plain ']' :: right) := by
        simp
      rw [hsplit] at h
      exact isMark_of_hit h
    · intro hnone
      by_contra hlong
      have hread : citationMarker (last prev (Scanning.text left))
          ('[' :: Scanning.text (middle ++ .plain ']' :: right)) = some ((), Scanning.text right) := by
        refine citationMarker_eq_some_iff.mpr ⟨Scanning.kept middle, ⟨hnumber, by omega⟩, ?_⟩
        rw [text_append, text_plain, text_eq_kept hnone, bracketed, List.cons_append,
          List.append_assoc]
        rfl
      rw [h.next_plain] at hread
      cases hread
  · intro ⟨front, middle, back, htext, hnumber, hmarks, hlong⟩
    obtain ⟨left, rfl, hleft⟩ := exists_scanned consumes_citationMarker prev front
    obtain ⟨right, rfl, hright⟩ := exists_scanned consumes_citationMarker (some ']') back
    have hinner : Scanned citationMarker (last prev (Scanning.text left))
        (.plain '[' :: (middle ++ .plain ']' :: right)) := by
      refine .plain ?_ (scanned_forming hnumber.2 hmarks hright _)
      rw [text_append, text_plain, citationMarker_cons, if_pos rfl,
        afterMarker?_forming hnumber.2 hmarks hlong]
      rfl
    have hwhole := hleft.append hinner fun prev a s => by
      rw [text_plain]
      exact citationMarker_border prev a s _
    obtain rfl := h.unique hwhole (by simp [htext])
    refine List.ne_nil_of_mem (mem_markers_iff.mpr ⟨hnumber, Scanning.kept left,
      Scanning.kept right, ?_⟩)
    simp

/-! ## 4. The answer -/

/-- White space is neither a digit nor a bracket. -/
theorem isSpace_plain (h : isSpace c = true) : isDecimal c = false ∧ c ≠ '[' ∧ c ≠ ']' := by
  refine ⟨?_, ?_, ?_⟩
  · rw [isDecimal, decimalDigit?_of_isSpace h]; rfl
  · intro hc; subst hc; cases h
  · intro hc; subst hc; cases h

theorem markers_strip (s : List Char) : markers (strip s) = markers s := by
  obtain ⟨lead, trail, hs, hlead, htrail⟩ := strip_parts s
  have htail : markers (strip s ++ trail) = markers (strip s) := by
    cases trail with
    | nil => rw [List.append_nil]
    | cons c trail =>
      have hc := isSpace_plain (htrail c List.mem_cons_self)
      have hnil : markers (c :: trail) = [] :=
        markers_of_no_bracket fun hmem => (isSpace_plain (htrail _ hmem)).2.1 rfl
      rw [markers_append hc.1 hc.2.2, hnil, List.append_nil]
  have hnone : '[' ∉ lead := fun hmem => (isSpace_plain (hlead _ hmem)).2.1 rfl
  rw [congrArg markers hs, List.append_assoc, markers_append_of_no_bracket hnone, htail]

/-- **When the provider's part has a marker.** -/
theorem markers_providerText (text : String) :
    markers (providerText text).toList ≠ [] ↔ Forming text.toList := by
  obtain ⟨pieces, htext, hscan⟩ := exists_scanned consumes_citationMarker none text.toList
  have hlength : (Scanning.text pieces).length ≤ text.length := by
    rw [htext, String.length_toList]
  rw [providerText, stripText, String.toList_ofList, markers_strip, String.toList_ofList, ← htext,
    withoutMarkers_eq hscan _ hlength, markers_kept_iff hscan]

theorem isDecimal_of_isDigit (h : c.isDigit = true) : isDecimal c = true := by
  have hcode : c.toNat = c.val.toNat := rfl
  simp only [Char.isDigit, Bool.and_eq_true, decide_eq_true_eq, ge_iff_le,
    UInt32.le_iff_toNat_le] at h
  simp at h
  rw [isDecimal, decimalDigit?, Option.isSome_map, List.find?_isSome]
  refine ⟨0x30, by decide, ?_⟩
  simp only [Bool.and_eq_true, decide_eq_true_eq, hcode]
  omega

/-- The digits of a label. -/
theorem label_citation (index : Nat) (item : Evidence) :
    IsNumber (Nat.toDigits 10 index) ∧
      (citation index item).label.toList = bracketed (Nat.toDigits 10 index) := by
  have hrepr : (toString index).toList = Nat.toDigits 10 index := String.toList_ofList
  refine ⟨⟨Nat.toDigits_ne_nil, fun d hd => ?_⟩, ?_⟩
  · exact isDecimal_of_isDigit (Nat.isDigit_of_mem_toDigits (by decide) (by decide) hd)
  · simp only [citation, String.toList_append, hrepr]
    rfl

/-- Markers with a comma and a blank between them. -/
theorem markers_intercalate {numbers : List (List Char)} (h : ∀ ds ∈ numbers, IsNumber ds) :
    markers ([',', ' '].intercalate (numbers.map bracketed)) = numbers := by
  induction numbers with
  | nil => rfl
  | cons ds numbers ih =>
    have hrest := ih fun ds' h' => h ds' (List.mem_cons_of_mem ds h')
    have hds := h ds List.mem_cons_self
    cases numbers with
    | nil =>
      have hone := markers_bracketed (s := []) hds
      rw [List.append_nil] at hone
      rw [List.map_cons, List.map_nil, List.intercalate_singleton, hone]
      rfl
    | cons ds' numbers =>
      rw [List.map_cons, List.map_cons, List.intercalate_cons_cons, ← List.map_cons,
        List.append_assoc, markers_bracketed hds]
      have hsep : markers ([',', ' '] ++ [',', ' '].intercalate ((ds' :: numbers).map bracketed)) =
          ds' :: numbers := by
        rw [List.cons_append, List.cons_append, List.nil_append, markers_cons_of_ne (by decide),
          markers_cons_of_ne (by decide), hrest]
      rw [hsep]

/-- **The markers of the text are the labels of the citations**, in order. -/
def Marked (a : AgentAnswer) : Prop :=
  (markers a.text.toList).map (fun ds => String.ofList (bracketed ds)) = a.citations.map (·.label)

/-- The provider's text is used and a marker closes up in it. -/
def FormsMarker (settings : Settings) (retrieved : Retrieved) : Prop :=
  ∃ items version text agentRunId,
    retrieved = .evidence items version (.result text false agentRunId) ∧
    (∃ item ∈ items, settings.minimumEvidenceScore ≤ item.score ∧
      settings.containsPromptInjection item.contentText = false) ∧
    Forming text.toList

variable {settings : Settings} {machine machine' : AgentState} {retrieved : Retrieved}
  {a a' : AgentAnswer}

theorem no_bracket_append {front back : String} (hfront : '[' ∉ front.toList)
    (hback : '[' ∉ back.toList) : '[' ∉ (front ++ back).toList := by
  rw [String.toList_append, List.mem_append, not_or]
  exact ⟨hfront, hback⟩

/-- A text without brackets and without citations. -/
theorem escalated_marked (h : escalated machine a' = some (machine', a))
    (htext : '[' ∉ a'.text.toList) (hcitations : a'.citations = []) : Marked a := by
  obtain ⟨_, _, h⟩ := Option.map_eq_some_iff.mp h
  cases h
  rw [Marked, markers_of_no_bracket htext, hcitations]
  rfl

/-- The text of a solution: the labels, and what is left of the provider's text. -/
theorem markers_solution {evidence : List Evidence} (provided : List Char)
    (citations : List Citation)
    (hcitations : citations = evidence.mapIdx fun index item => citation (index + 1) item) :
    ∃ numbers : List (List Char), numbers.map bracketed = citations.map (·.label.toList) ∧
      markers ("Based on approved employee evidence ".toList ++
        [',', ' '].intercalate (citations.map (·.label.toList)) ++ ": ".toList ++ provided ++
        "\n\nDid this resolve the issue?".toList) = numbers ++ markers provided := by
  have hnumbers : ∃ numbers : List (List Char), (∀ ds ∈ numbers, IsNumber ds) ∧
      numbers.map bracketed = citations.map (·.label.toList) := by
    refine ⟨evidence.mapIdx fun index _ => Nat.toDigits 10 (index + 1), ?_, ?_⟩
    · intro ds hds
      obtain ⟨index, hindex, rfl⟩ := List.mem_mapIdx.mp hds
      exact (label_citation (index + 1) evidence[index]).1
    · subst hcitations
      refine List.ext_getElem (by simp) fun index _ _ => ?_
      simp only [List.getElem_mapIdx, List.getElem_map]
      exact (label_citation (index + 1) _).2.symm
  obtain ⟨numbers, hall, hlabels⟩ := hnumbers
  refine ⟨numbers, hlabels, ?_⟩
  have hcolon : ": ".toList = [':', ' '] := rfl
  have hend : "\n\nDid this resolve the issue?".toList =
      '\n' :: "\nDid this resolve the issue?".toList := rfl
  have hnone : markers ('\n' :: "\nDid this resolve the issue?".toList) = [] :=
    markers_of_no_bracket (by decide)
  rw [hcolon, hend, ← hlabels, List.append_assoc, List.append_assoc, List.append_assoc,
    markers_append_of_no_bracket (by decide), List.cons_append, markers_append (by decide) (by decide),
    markers_intercalate hall, markers_cons_of_ne (by decide), List.cons_append, List.nil_append,
    markers_cons_of_ne (by decide), markers_append (by decide) (by decide), hnone, List.append_nil]

theorem solution_marked {evidence : List Evidence} {provided : String} {citations : List Citation}
    (hcitations : citations = evidence.mapIdx fun index item => citation (index + 1) item)
    (htext : a.text = "Based on approved employee evidence " ++
      ", ".intercalate (citations.map (·.label)) ++ ": " ++ provided ++
      "\n\nDid this resolve the issue?") (hlist : a.citations = citations) :
    Marked a ↔ markers provided.toList = [] := by
  obtain ⟨numbers, hlabels, hmarkers⟩ := markers_solution provided.toList citations
    hcitations
  have hnumbers : numbers.map (fun ds => String.ofList (bracketed ds)) = citations.map (·.label) := by
    have hback := congrArg (List.map String.ofList) hlabels
    rw [List.map_map, List.map_map] at hback
    rw [show (fun ds => String.ofList (bracketed ds)) = String.ofList ∘ bracketed from rfl, hback]
    exact List.map_congr_left fun c _ => String.ofList_toList
  rw [Marked, htext, hlist, String.toList_append, String.toList_append, String.toList_append,
    String.toList_append, String.toList_intercalate, List.map_map]
  have hsep : ", ".toList = [',', ' '] := rfl
  rw [hsep, show (String.toList ∘ fun c : Citation => c.label) = fun c => c.label.toList from rfl,
    hmarkers, List.map_append, hnumbers, List.append_right_eq_self, List.map_eq_nil_iff]

/-- **The law.** The markers of an answer are the labels of its citations exactly where no
    marker closes up in the provider's text; what is streamed is that answer. -/
theorem answer_markers_law (h : answer settings machine retrieved = some (machine', a)) :
    (Marked a ↔ ¬ FormsMarker settings retrieved) ∧
      (chunks a.text settings.streamChunkCharacters).flatMap String.toList = a.text.toList := by
  constructor
  · have hnever : Marked a → ¬ FormsMarker settings retrieved →
        (Marked a ↔ ¬ FormsMarker settings retrieved) := fun hm hf => ⟨fun _ => hf, fun _ => hm⟩
    unfold answer at h
    split at h
    · refine hnever (escalated_marked h
        (no_bracket_append (not_mem_text (by decide)) (not_mem_text (by decide))) rfl) ?_
      intro ⟨_, _, _, _, heq, _⟩
      cases heq
    · next items version generation =>
      dsimp only at h
      split at h
      · -- no evidence
        next hnil =>
        refine hnever (escalated_marked h
          (no_bracket_append (no_bracket_append (not_mem_text (by decide)) (not_mem_text (by decide)))
            (not_mem_text (by decide))) rfl) ?_
        intro ⟨_, _, _, _, heq, ⟨item, hitem, hscore, hsafe⟩, _⟩
        cases heq
        have hmem : item ∈ items.filter fun item =>
            settings.minimumEvidenceScore ≤ item.score &&
              !settings.containsPromptInjection item.contentText := by
          rw [List.mem_filter]
          exact ⟨hitem, by simp [hscore, hsafe]⟩
        rw [hnil] at hmem
        cases hmem
      next hne =>
      split at h
      · refine hnever (escalated_marked h
          (no_bracket_append (not_mem_text (by decide)) (not_mem_text (by decide))) rfl) ?_
        intro ⟨_, _, _, _, heq, _⟩
        cases heq
      next text toolRequests agentRunId =>
      split at h
      · next htools =>
        refine hnever (escalated_marked h
          (no_bracket_append (not_mem_text (by decide)) (not_mem_text (by decide))) rfl) ?_
        intro ⟨_, _, _, _, heq, _⟩
        cases heq
        cases htools
      next htools =>
      split at h
      · next hempty =>
        refine hnever (escalated_marked h
          (no_bracket_append (no_bracket_append (not_mem_text (by decide)) (not_mem_text (by decide)))
            (not_mem_text (by decide))) rfl) ?_
        intro ⟨_, _, _, _, heq, _, hforming⟩
        cases heq
        have hsome := (markers_providerText text).mpr hforming
        rw [hempty] at hsome
        exact hsome rfl
      · -- the provider's text is used
        simp only [Option.bind_eq_bind, Option.bind_eq_some_iff] at h
        obtain ⟨_, _, _, _, h⟩ := h
        cases h
        rw [solution_marked rfl rfl rfl]
        constructor
        · intro hnil ⟨_, _, _, _, heq, _, hforming⟩
          cases heq
          exact (markers_providerText text).mpr hforming hnil
        · intro hnone
          by_contra hsome
          obtain ⟨item, hitem⟩ := List.exists_mem_of_ne_nil _ hne
          obtain ⟨hmem, hfit⟩ := List.mem_filter.mp hitem
          rw [Bool.and_eq_true, decide_eq_true_eq, Bool.not_eq_true'] at hfit
          rw [Bool.not_eq_true] at htools
          exact hnone ⟨items, version, text, agentRunId, by rw [htools], ⟨item, hmem, hfit⟩,
            (markers_providerText text).mp hsome⟩
  · rw [chunks, List.flatMap_map]
    have hid : (fun part : List Char => (String.ofList part).toList) = id :=
      funext fun part => String.toList_ofList
    rw [hid, List.flatMap_id, toChunks_flatten]

/-- Settings without a forbidden phrase, and one piece of evidence with a provider's text. -/
def plainSettings : Settings where
  minimumEvidenceScore := 0
  streamChunkCharacters := 120
  containsPromptInjection _ := false
  requiresImmediateEscalation _ := false

def retrievedWith (text : String) : Retrieved :=
  .evidence [⟨1, "Restart the printer.", "Printers", "COMPANY_PROCEDURE", none, none, none, none⟩] 1
    (.result text false 2)

theorem answer_markers_law_printer : ∃ machine' a,
    answer plainSettings .searchingKnowledge (retrievedWith "Restart it.") = some (machine', a) ∧
      Marked a := by
  have hsome : (answer plainSettings .searchingKnowledge (retrievedWith "Restart it.")).isSome := by
    decide +kernel
  obtain ⟨⟨machine', a⟩, h⟩ := Option.isSome_iff_exists.mp hsome
  refine ⟨machine', a, h, (answer_markers_law h).1.mpr ?_⟩
  intro ⟨_, _, _, _, heq, _, front, _, _, hforming, _⟩
  cases heq
  have hmem : '[' ∈ "Restart it.".toList := by rw [hforming]; simp
  revert hmem
  decide

/-- A marker in brackets with digits leaves a marker that no citation has. -/
theorem nested_marker_forms : ∃ machine' a,
    answer plainSettings .searchingKnowledge (retrievedWith "Restart it [4[1]2].") =
      some (machine', a) ∧ ¬ Marked a := by
  have hsome : (answer plainSettings .searchingKnowledge (retrievedWith "Restart it [4[1]2].")).map
      (fun found => (markers found.2.text.toList, found.2.citations.map (·.label))) =
        some ([['1'], ['4', '2']], ["[1]"]) := by
    decide +kernel
  obtain ⟨⟨machine', a⟩, h, hfound⟩ := Option.map_eq_some_iff.mp hsome
  obtain ⟨hmarkers, hlabels⟩ := Prod.mk.inj hfound
  refine ⟨machine', a, h, ?_⟩
  rw [Marked, hmarkers, hlabels]
  decide

end Helpdesk.EmployeeAgent
