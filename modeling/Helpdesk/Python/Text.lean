/-
  File:      Helpdesk/Python/Text.lean
  Subject:   Python's `str`, as far as the services use it.

  A text is worked on as the list of its characters. White space and the decimal
  digits are Unicode's, as `str.isspace` and `int` see them.
-/
import Mathlib.Data.List.Basic
import Mathlib.Data.List.TakeWhile

namespace Helpdesk.Python

/-! ## 1. White space -/

/-- `str.isspace`. -/
def isSpace (c : Char) : Bool :=
  let n := c.toNat
  (0x9 ≤ n && n ≤ 0xd) || (0x1c ≤ n && n ≤ 0x20) || (0x2000 ≤ n && n ≤ 0x200a) ||
    [0x85, 0xa0, 0x1680, 0x2028, 0x2029, 0x202f, 0x205f, 0x3000].contains n

/-- `strip(chars)`, for any set of characters. -/
def stripWhere (drop : Char → Bool) (text : List Char) : List Char :=
  ((text.dropWhile drop).reverse.dropWhile drop).reverse

/-- `strip()`. -/
def strip (text : List Char) : List Char := stripWhere isSpace text

/-- `text.strip()`. -/
def stripText (text : String) : String := String.ofList (strip text.toList)

/-- A text that is written out is looked through as its characters. -/
theorem not_mem_text {c : Char} {text : List Char} (h : c ∉ text) : c ∉ (String.ofList text).toList := by
  rw [String.toList_ofList]
  exact h

theorem none_of_all {p : Char → Bool} {text : List Char} (h : text.all (!p ·) = true) :
    ∀ c ∈ text, p c = false := by
  intro c hc
  exact Bool.not_eq_true' (p c) ▸ List.all_eq_true.mp h c hc

/-- Nothing to strip: neither end is dropped. -/
theorem stripWhere_eq_self {drop : Char → Bool} {text : List Char}
    (hhead : ∀ c ∈ text.head?, ¬ drop c) (hlast : ∀ c ∈ text.getLast?, ¬ drop c) :
    stripWhere drop text = text := by
  have hkeep : ∀ {cs : List Char}, (∀ c ∈ cs.head?, ¬ drop c) → cs.dropWhile drop = cs := by
    intro cs hcs
    cases cs with
    | nil => rfl
    | cons c cs => exact List.dropWhile_cons_of_neg (hcs c rfl)
  rw [stripWhere, hkeep hhead, hkeep, List.reverse_reverse]
  intro c hc
  rw [List.head?_reverse] at hc
  exact hlast c hc

/-- A stripped text has nothing more to strip. -/
theorem strip_strip (text : List Char) : strip (strip text) = strip text := by
  have hhead : ∀ (cs : List Char), ∀ c ∈ (cs.dropWhile isSpace).head?, ¬ isSpace c := by
    intro cs c hc hspace
    have hnot := List.head?_dropWhile_not isSpace cs
    rw [Option.mem_def.mp hc] at hnot
    simp only [hspace] at hnot
    cases hnot
  apply stripWhere_eq_self
  · -- the head of the text is not dropped from behind
    intro c hc
    rw [strip, stripWhere, List.head?_reverse] at hc
    have hsuffix : (text.dropWhile isSpace).reverse.dropWhile isSpace <:+
        (text.dropWhile isSpace).reverse := List.dropWhile_suffix isSpace
    have hlast : c ∈ (text.dropWhile isSpace).reverse.getLast? := by
      obtain ⟨front, hfront⟩ := hsuffix
      rw [← hfront]
      exact List.mem_getLast?_append_of_mem_getLast? hc
    rw [List.getLast?_reverse] at hlast
    exact hhead text c hlast
  · intro c hc
    rw [strip, stripWhere, List.getLast?_reverse] at hc
    exact hhead _ c hc

theorem strip_eq_nil_iff {text : List Char} : strip text = [] ↔ ∀ c ∈ text, isSpace c = true := by
  rw [strip, stripWhere, List.reverse_eq_nil_iff, List.dropWhile_eq_nil_iff]
  constructor
  · intro h c hc
    by_cases hin : c ∈ text.dropWhile isSpace
    · exact h c (List.mem_reverse.mpr hin)
    · have hsplit : text.takeWhile isSpace ++ text.dropWhile isSpace = text :=
        List.takeWhile_append_dropWhile
      rw [← hsplit] at hc
      exact List.mem_takeWhile_imp ((List.mem_append.mp hc).resolve_right hin)
  · intro h c hc
    exact h c ((List.dropWhile_subset isSpace) (List.mem_reverse.mp hc))

/-- `split()`. -/
def words (text : List Char) : List (List Char) := (text.splitOnP isSpace).filter (· ≠ [])

/-- `" ".join(text.split())`. -/
def collapseText (text : String) : String := String.ofList ([' '].intercalate (words text.toList))

theorem mem_splitOnP {text word : List Char} (h : word ∈ text.splitOnP isSpace) :
    (∀ c ∈ word, isSpace c = false) ∧ ∀ c ∈ word, c ∈ text := by
  induction text generalizing word with
  | nil =>
      rw [List.splitOnP_nil, List.mem_singleton] at h
      subst h
      simp
  | cons c text ih =>
      rw [List.splitOnP_cons_eq_if_modifyHead] at h
      by_cases hc : isSpace c = true
      · rw [if_pos hc] at h
        rcases List.mem_cons.mp h with rfl | hmem
        · simp
        · obtain ⟨hspace, hin⟩ := ih hmem
          exact ⟨hspace, fun d hd => List.mem_cons_of_mem c (hin d hd)⟩
      · rw [if_neg hc] at h
        have hne : text.splitOnP isSpace ≠ [] := List.splitOnP_ne_nil isSpace text
        obtain ⟨first, rest, hsplit⟩ := List.exists_cons_of_ne_nil hne
        rw [hsplit, List.modifyHead_cons] at h
        rcases List.mem_cons.mp h with rfl | hmem
        · obtain ⟨hspace, hin⟩ := ih (by rw [hsplit]; exact List.mem_cons_self)
          refine ⟨fun d hd => ?_, fun d hd => ?_⟩
          · rcases List.mem_cons.mp hd with rfl | hd
            · exact Bool.eq_false_iff.mpr hc
            · exact hspace d hd
          · rcases List.mem_cons.mp hd with rfl | hd
            · exact List.mem_cons_self
            · exact List.mem_cons_of_mem c (hin d hd)
        · obtain ⟨hspace, hin⟩ := ih (by rw [hsplit]; exact List.mem_cons_of_mem _ hmem)
          exact ⟨hspace, fun d hd => List.mem_cons_of_mem c (hin d hd)⟩

theorem mem_words {text word : List Char} (h : word ∈ words text) :
    word ≠ [] ∧ ∀ c ∈ word, isSpace c = false := by
  obtain ⟨hmem, hne⟩ := List.mem_filter.mp h
  exact ⟨by simpa using hne, (mem_splitOnP hmem).1⟩

/-- Words joined by a space are the words of the text. -/
theorem words_intercalate : ∀ {ws : List (List Char)},
    (∀ word ∈ ws, word ≠ [] ∧ ∀ c ∈ word, isSpace c = false) → words ([' '].intercalate ws) = ws
  | [], _ => rfl
  | [word], h => by
      obtain ⟨hne, hspace⟩ := h word List.mem_cons_self
      rw [List.intercalate_singleton, words, List.splitOnP_eq_singleton hspace]
      simp [hne]
  | word :: next :: rest, h => by
      obtain ⟨hne, hspace⟩ := h word List.mem_cons_self
      have hrest : words ([' '].intercalate (next :: rest)) = next :: rest :=
        words_intercalate fun w hw => h w (List.mem_cons_of_mem word hw)
      have hsplit : [' '].intercalate (word :: next :: rest) =
          word ++ ' ' :: [' '].intercalate (next :: rest) := by
        rw [List.intercalate_cons_cons, List.append_assoc]
        rfl
      unfold words at hrest ⊢
      rw [hsplit, List.splitOnP_append_cons_of_forall_mem hspace ' ' rfl,
        List.filter_cons_of_pos (by simp [hne]), hrest]

/-- Collapsing twice is collapsing once. -/
theorem collapseText_collapseText (text : String) :
    collapseText (collapseText text) = collapseText text := by
  unfold collapseText
  rw [String.toList_ofList, words_intercalate fun _ => mem_words]

theorem words_eq_nil_iff {text : List Char} : words text = [] ↔ ∀ c ∈ text, isSpace c = true := by
  constructor
  · intro h
    induction text with
    | nil => simp
    | cons c text ih =>
        have hne : text.splitOnP isSpace ≠ [] := List.splitOnP_ne_nil isSpace text
        obtain ⟨first, rest, hsplit⟩ := List.exists_cons_of_ne_nil hne
        by_cases hc : isSpace c = true
        · have hrest : words text = [] := by
            simpa [words, List.splitOnP_cons_eq_if_modifyHead, hc] using h
          intro d hd
          rcases List.mem_cons.mp hd with rfl | hd
          · exact hc
          · exact ih hrest d hd
        · simp [words, List.splitOnP_cons_eq_if_modifyHead, hc, hsplit] at h
  · intro h
    rw [words, List.filter_eq_nil_iff]
    intro word hword
    obtain ⟨hspace, hin⟩ := mem_splitOnP hword
    cases word with
    | nil => simp
    | cons c word =>
        have hfalse := hspace c List.mem_cons_self
        rw [h c (hin c List.mem_cons_self)] at hfalse
        cases hfalse

theorem intercalate_eq_nil_iff {ws : List (List Char)} (h : ∀ word ∈ ws, word ≠ []) :
    [' '].intercalate ws = [] ↔ ws = [] := by
  cases ws with
  | nil => simp
  | cons word rest =>
      have hne := h word List.mem_cons_self
      cases rest with
      | nil => simp [hne]
      | cons next rest => simp [List.intercalate_cons_cons]

/-- White space only collapses to nothing. -/
theorem collapseText_eq_empty_iff {text : String} :
    collapseText text = "" ↔ ∀ c ∈ text.toList, isSpace c = true := by
  rw [collapseText, String.ofList_eq_empty_iff,
    intercalate_eq_nil_iff fun _ h => (mem_words h).1, words_eq_nil_iff]

theorem stripText_eq_empty_iff {text : String} :
    stripText text = "" ↔ ∀ c ∈ text.toList, isSpace c = true := by
  rw [stripText, String.ofList_eq_empty_iff, strip_eq_nil_iff]

/-! ## 2. Case -/

/-- One character of `text.upper()`, exact where the result is ASCII: the letters
    beyond ASCII that become ASCII ones are listed, the others stay. -/
def upperChar (c : Char) : List Char :=
  if 'a' ≤ c ∧ c ≤ 'z' then [Char.ofNat (c.toNat - 32)]
  else match c.toNat with
  | 0xdf => ['S', 'S']
  | 0x131 => ['I']
  | 0x17f => ['S']
  | 0xfb00 => ['F', 'F']
  | 0xfb01 => ['F', 'I']
  | 0xfb02 => ['F', 'L']
  | 0xfb03 => ['F', 'F', 'I']
  | 0xfb04 => ['F', 'F', 'L']
  | 0xfb05 => ['S', 'T']
  | 0xfb06 => ['S', 'T']
  | _ => [c]

/-- `text.upper()`, for comparison with ASCII words. -/
def upper (text : String) : String := String.ofList (text.toList.flatMap upperChar)

/-- One character of `text.lower()`, exact where the result is ASCII: beyond ASCII
    only the Kelvin sign becomes an ASCII letter. -/
def lowerChar (c : Char) : Char :=
  if 'A' ≤ c ∧ c ≤ 'Z' then Char.ofNat (c.toNat + 32)
  else if c.toNat = 0x212a then 'k'
  else c

/-- `text.lower()`, for comparison with ASCII words. -/
def lower (text : String) : String := String.ofList (text.toList.map lowerChar)

/-! ## 3. Replacement -/

/-- The rest of the text after a prefix. -/
def dropPrefix? : List Char → List Char → Option (List Char)
  | [], text => some text
  | _ :: _, [] => none
  | p :: ps, c :: cs => if p = c then dropPrefix? ps cs else none

/-- `replace(pattern, by_)` for a pattern that is not empty; the first argument
    bounds the number of characters left. -/
def replaceFuel (pattern by_ : List Char) : Nat → List Char → List Char
  | 0, text => text
  | _ + 1, [] => []
  | n + 1, c :: cs =>
      match dropPrefix? pattern (c :: cs) with
      | some rest => by_ ++ replaceFuel pattern by_ n rest
      | none => c :: replaceFuel pattern by_ n cs

/-- `text.replace(pattern, by_)`. -/
def replace (pattern by_ text : List Char) : List Char :=
  replaceFuel pattern by_ text.length text

/-- A text without the first character of the pattern stays as it is. -/
theorem replace_of_not_mem {p : Char} {ps by_ text : List Char} (hp : p ∉ text) :
    replace (p :: ps) by_ text = text := by
  have hfuel : ∀ (n : Nat) (cs : List Char), p ∉ cs → replaceFuel (p :: ps) by_ n cs = cs := by
    intro n
    induction n with
    | zero => exact fun _ _ => rfl
    | succ n ih =>
        intro cs hcs
        cases cs with
        | nil => rfl
        | cons c cs =>
            have hne : p ≠ c := fun h => hcs (h ▸ List.mem_cons_self)
            have hnone : dropPrefix? (p :: ps) (c :: cs) = none := if_neg hne
            rw [replaceFuel, hnone]
            exact congrArg (c :: ·) (ih cs fun h => hcs (List.mem_cons_of_mem c h))
  exact hfuel _ _ hp

/-- Removing one character everywhere. -/
theorem replace_single {p : Char} (text : List Char) :
    replace [p] [] text = text.filter (· ≠ p) := by
  have hfuel : ∀ (n : Nat) (cs : List Char), cs.length ≤ n →
      replaceFuel [p] [] n cs = cs.filter (· ≠ p) := by
    intro n
    induction n with
    | zero =>
        intro cs hcs
        rw [List.eq_nil_of_length_eq_zero (Nat.le_zero.mp hcs)]
        rfl
    | succ n ih =>
        intro cs hcs
        cases cs with
        | nil => rfl
        | cons c cs =>
            have hle : cs.length ≤ n := by simpa using hcs
            by_cases hc : p = c
            · subst hc
              simp [replaceFuel, dropPrefix?, ih cs hle]
            · have hc' : c ≠ p := fun h => hc h.symm
              simp [replaceFuel, dropPrefix?, hc, hc', ih cs hle]
  exact hfuel _ _ (Nat.le_refl _)

/-! ## 4. Digits and integers -/

/-- The zeros of Unicode's decimal digits; nine more follow each of them. -/
def digitZeros : List Nat :=
  [0x30, 0x660, 0x6f0, 0x7c0, 0x966, 0x9e6, 0xa66, 0xae6, 0xb66, 0xbe6, 0xc66, 0xce6, 0xd66,
   0xde6, 0xe50, 0xed0, 0xf20, 0x1040, 0x1090, 0x17e0, 0x1810, 0x1946, 0x19d0, 0x1a80, 0x1a90,
   0x1b50, 0x1bb0, 0x1c40, 0x1c50, 0xa620, 0xa8d0, 0xa900, 0xa9d0, 0xa9f0, 0xaa50, 0xabf0,
   0xff10, 0x104a0, 0x10d30, 0x11066, 0x110f0, 0x11136, 0x111d0, 0x112f0, 0x11450, 0x114d0,
   0x11650, 0x116c0, 0x11730, 0x118e0, 0x11950, 0x11c50, 0x11d50, 0x11da0, 0x11f50, 0x16a60,
   0x16ac0, 0x16b50, 0x1d7ce, 0x1d7d8, 0x1d7e2, 0x1d7ec, 0x1d7f6, 0x1e140, 0x1e2f0, 0x1e4f0,
   0x1e950, 0x1fbf0]

/-- `unicodedata.decimal`. -/
def decimalDigit? (c : Char) : Option Nat :=
  (digitZeros.find? fun z => z ≤ c.toNat && c.toNat ≤ z + 9).map (c.toNat - ·)

/-- A digit of `int(text, 16)`. -/
def hexDigit? (c : Char) : Option Nat :=
  if 'a' ≤ c ∧ c ≤ 'f' then some (c.toNat - 'a'.toNat + 10)
  else if 'A' ≤ c ∧ c ≤ 'F' then some (c.toNat - 'A'.toNat + 10)
  else decimalDigit? c

/-- The digits of a number with single underscores between them; `last` is the
    value read so far, `underscore` whether an underscore may follow. -/
def hexNumberFrom : Nat → Bool → List Char → Option Nat
  | value, underscore, [] => if underscore then some value else none
  | value, underscore, c :: cs =>
      if c = '_' then (if underscore then hexNumberFrom value false cs else none)
      else (hexDigit? c).bind fun d => hexNumberFrom (value * 16 + d) true cs

/-- The part of `int(text, 16)` after the sign: an optional `0x`, which an
    underscore may follow. -/
def hexNumber? : List Char → Option Nat
  | '0' :: x :: cs =>
      if x = 'x' ∨ x = 'X' then
        match cs with
        | '_' :: cs => hexNumberFrom 0 false cs
        | cs => hexNumberFrom 0 false cs
      else hexNumberFrom 0 false ('0' :: x :: cs)
  | cs => hexNumberFrom 0 false cs

/-- `int(text, 16)`; `none` is the `ValueError`. -/
def intOfHex? (text : List Char) : Option Int :=
  match strip text with
  | '+' :: cs => (hexNumber? cs).map Int.ofNat
  | '-' :: cs => (hexNumber? cs).map fun n => -(n : Int)
  | cs => (hexNumber? cs).map Int.ofNat

end Helpdesk.Python
