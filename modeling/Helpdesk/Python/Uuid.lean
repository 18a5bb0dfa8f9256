/-
  File:      Helpdesk/Python/Uuid.lean
  Subject:   UUIDs: their text, and what `uuid.UUID` reads back.
-/
import Helpdesk.Python.Text
import Mathlib.Algebra.Group.Int.Defs
import Mathlib.Algebra.Group.Nat.Defs

namespace Helpdesk.Python

/-- A UUID by its 128-bit value: its canonical text orders as the number does. -/
abbrev Uuid := Nat

def hexDigit (n : Nat) : Char := (Nat.toDigits 16 n).headD '0'

/-- The 32 hexadecimal digits, the highest first. -/
def uuidDigits (id : Uuid) : List Char :=
  (List.range 32).map fun i => hexDigit (id / 16 ^ (31 - i) % 16)

/-- The canonical text of a UUID: 32 hexadecimal digits in five groups. -/
def uuidText (id : Uuid) : String :=
  let digits := uuidDigits id
  String.ofList (digits.take 8 ++ ['-'] ++ (digits.drop 8).take 4 ++ ['-'] ++
    (digits.drop 12).take 4 ++ ['-'] ++ (digits.drop 16).take 4 ++ ['-'] ++ digits.drop 20)

/-- What `UUID` leaves of a text: no URN prefix, no braces, no hyphens. -/
def uuidHex (text : List Char) : List Char :=
  replace ['-'] [] (stripWhere (fun c => c = '\x7b' || c = '\x7d')
    (replace ['u', 'u', 'i', 'd', ':'] [] (replace ['u', 'r', 'n', ':'] [] text)))

/-- `UUID(text)`; `none` is the `ValueError`. -/
def uuid? (text : String) : Option Uuid :=
  let hex := uuidHex text.toList
  if hex.length ≠ 32 then none
  else (intOfHex? hex).bind fun n =>
    if 0 ≤ n ∧ n < 2 ^ 128 then some n.toNat else none

/-! ## The text reads back -/

/-- What the parsers ask about one digit. -/
structure PlainDigit (c : Char) (d : Nat) : Prop where
  value : hexDigit? c = some d
  space : isSpace c = false
  ascii : c ∉ ['-', '+', '_', 'x', 'X', 'u', '\x7b', '\x7d']

theorem hexDigit_plain {d : Nat} (hd : d < 16) : PlainDigit (hexDigit d) d := by
  have hall : ∀ d : Fin 16, hexDigit? (hexDigit d) = some d.val ∧ isSpace (hexDigit d) = false ∧
      hexDigit d ∉ ['-', '+', '_', 'x', 'X', 'u', '\x7b', '\x7d'] := by decide
  obtain ⟨hvalue, hspace, hascii⟩ := hall ⟨d, hd⟩
  exact ⟨hvalue, hspace, hascii⟩

/-- The value of a list of digits, the highest first. -/
def ofHexDigits (value : Nat) (ds : List Nat) : Nat := ds.foldl (fun v d => v * 16 + d) value

theorem hexNumberFrom_digits : ∀ (ds : List Nat) (value : Nat) (underscore : Bool),
    (∀ d ∈ ds, d < 16) → (underscore ∨ ds ≠ []) →
      hexNumberFrom value underscore (ds.map hexDigit) = some (ofHexDigits value ds)
  | [], value, underscore, _, hsome => by
      have hu : underscore = true := hsome.resolve_right fun h => h rfl
      subst hu
      rfl
  | d :: ds, value, underscore, hds, _ => by
      have hplain := hexDigit_plain (hds d List.mem_cons_self)
      have hne : hexDigit d ≠ '_' := fun h => hplain.ascii (by simp [h])
      have hrest := hexNumberFrom_digits ds (value * 16 + d) true
        (fun d' hd' => hds d' (List.mem_cons_of_mem d hd')) (.inl rfl)
      rw [List.map_cons, hexNumberFrom, if_neg hne, hplain.value, Option.bind_some, hrest]
      rfl

theorem hexNumber?_digits {ds : List Nat} (hds : ∀ d ∈ ds, d < 16) (hne : ds ≠ []) :
    hexNumber? (ds.map hexDigit) = some (ofHexDigits 0 ds) := by
  have hfrom := hexNumberFrom_digits ds 0 false hds (.inr hne)
  unfold hexNumber?
  split
  case h_2 => exact hfrom
  case h_1 x cs hcs =>
    -- a second character that is a digit is no `x`
    have hx : ¬ (x = 'x' ∨ x = 'X') := by
      obtain _ | ⟨d, _ | ⟨e, ds⟩⟩ := ds
      · simp at hcs
      · simp at hcs
      · simp only [List.map_cons, List.cons.injEq] at hcs
        have hplain := hexDigit_plain (hds e (by simp))
        rw [← hcs.2.1]
        rintro (h | h)
        · exact hplain.ascii (by simp [h])
        · exact hplain.ascii (by simp [h])
    rw [if_neg hx, ← hcs]
    exact hfrom

theorem intOfHex?_digits {ds : List Nat} (hds : ∀ d ∈ ds, d < 16) (hne : ds ≠ []) :
    intOfHex? (ds.map hexDigit) = some (ofHexDigits 0 ds : Int) := by
  have hplain : ∀ c ∈ ds.map hexDigit, ∃ d, PlainDigit c d := by
    intro c hc
    obtain ⟨d, hd, rfl⟩ := List.mem_map.mp hc
    exact ⟨d, hexDigit_plain (hds d hd)⟩
  have hstrip : strip (ds.map hexDigit) = ds.map hexDigit := by
    apply stripWhere_eq_self
    · intro c hc
      obtain ⟨d, hd⟩ := hplain c (List.mem_of_mem_head? hc)
      simp [hd.space]
    · intro c hc
      obtain ⟨d, hd⟩ := hplain c (List.mem_of_getLast? hc)
      simp [hd.space]
  have hnumber := hexNumber?_digits hds hne
  unfold intOfHex?
  rw [hstrip]
  split
  case h_1 cs hcs =>
    obtain ⟨d, hd⟩ := hplain '+' (by rw [hcs]; simp)
    exact absurd (by simp) hd.ascii
  case h_2 cs hcs =>
    obtain ⟨d, hd⟩ := hplain '-' (by rw [hcs]; simp)
    exact absurd (by simp) hd.ascii
  case h_3 => rw [hnumber]; rfl

/-- The digits down from the highest of `n`: after `k` of them the value is what
    stands above the other `n - k`. -/
theorem ofHexDigits_top (id n : Nat) : ∀ k ≤ n,
    ofHexDigits 0 ((List.range k).map fun i => id / 16 ^ (n - 1 - i) % 16) =
      id / 16 ^ (n - k) % 16 ^ k
  | 0, _ => by simp [ofHexDigits, Nat.mod_one]
  | k + 1, hk => by
      have ih := ofHexDigits_top id n k (Nat.le_of_succ_le hk)
      obtain ⟨m, rfl⟩ : ∃ m, n = m + (k + 1) := ⟨n - (k + 1), by omega⟩
      have hlow : m + (k + 1) - 1 - k = m := by omega
      have hhigh : m + (k + 1) - k = m + 1 := by omega
      rw [hhigh] at ih
      rw [List.range_succ, List.map_append, ofHexDigits, List.foldl_append]
      rw [ofHexDigits] at ih
      rw [ih, List.map_singleton, List.foldl_cons, List.foldl_nil, hlow, Nat.add_sub_cancel]
      rw [Nat.pow_succ 16 m, ← Nat.div_div_eq_div_mul, Nat.pow_succ' , Nat.mod_mul, Nat.mul_comm]
      omega

theorem uuidDigits_eq_map (id : Uuid) : uuidDigits id =
    ((List.range 32).map fun i => id / 16 ^ (32 - 1 - i) % 16).map hexDigit := by
  rw [uuidDigits, List.map_map]
  rfl

theorem uuidDigits_plain (id : Uuid) : ∀ c ∈ uuidDigits id, ∃ d, PlainDigit c d := by
  intro c hc
  obtain ⟨i, _, rfl⟩ := List.mem_map.mp hc
  exact ⟨_, hexDigit_plain (Nat.mod_lt _ (by decide))⟩

/-- The text of a UUID: digits and hyphens. -/
theorem mem_uuidText {id : Uuid} {c : Char} (hc : c ∈ (uuidText id).toList) :
    c = '-' ∨ ∃ d, PlainDigit c d := by
  have hplain := uuidDigits_plain id
  have htake : ∀ n m, c ∈ ((uuidDigits id).drop n).take m → c ∈ uuidDigits id :=
    fun n m h => List.mem_of_mem_drop (List.mem_of_mem_take h)
  simp only [uuidText, String.toList_ofList, List.mem_append, List.mem_singleton] at hc
  rcases hc with (((((((h | h) | h) | h) | h) | h) | h) | h) | h
  · exact .inr (hplain c (List.mem_of_mem_take h))
  · exact .inl h
  · exact .inr (hplain c (htake _ _ h))
  · exact .inl h
  · exact .inr (hplain c (htake _ _ h))
  · exact .inl h
  · exact .inr (hplain c (htake _ _ h))
  · exact .inl h
  · exact .inr (hplain c (List.mem_of_mem_drop h))

theorem uuidText_filter (id : Uuid) : (uuidText id).toList.filter (· ≠ '-') = uuidDigits id := by
  have hkeep : ∀ cs ⊆ uuidDigits id, cs.filter (· ≠ '-') = cs := by
    intro cs hcs
    refine List.filter_eq_self.mpr fun c hc => ?_
    obtain ⟨d, hd⟩ := uuidDigits_plain id c (hcs hc)
    simpa using fun h : c = '-' => hd.ascii (by simp [h])
  have htake : ∀ n m, ((uuidDigits id).drop n).take m ⊆ uuidDigits id :=
    fun n m c h => List.mem_of_mem_drop (List.mem_of_mem_take h)
  have hsplit : ∀ n m, ((uuidDigits id).drop n).take m ++ (uuidDigits id).drop (n + m) =
      (uuidDigits id).drop n := by
    intro n m
    rw [← List.drop_drop, List.take_append_drop]
  simp only [uuidText, String.toList_ofList, List.filter_append]
  rw [hkeep _ fun c => List.mem_of_mem_take, hkeep _ (htake 8 4), hkeep _ (htake 12 4),
    hkeep _ (htake 16 4), hkeep _ fun c => List.mem_of_mem_drop]
  simp [hsplit]

theorem uuidHex_uuidText (id : Uuid) : uuidHex (uuidText id).toList = uuidDigits id := by
  have hnot : ∀ c ∈ ['u', '\x7b', '\x7d'], c ∉ (uuidText id).toList := by
    intro c hc hin
    rcases mem_uuidText hin with rfl | ⟨d, hd⟩
    · exact absurd hc (by decide)
    · have hsub : ['u', '\x7b', '\x7d'] ⊆ ['-', '+', '_', 'x', 'X', 'u', '\x7b', '\x7d'] := by decide
      exact hd.ascii (hsub hc)
  have hbraces : ∀ c ∈ (uuidText id).toList, ¬ (c = '\x7b' || c = '\x7d') := by
    intro c hc h
    rcases Bool.or_eq_true _ _ ▸ h with h | h
    · exact hnot '\x7b' (by simp) (of_decide_eq_true h ▸ hc)
    · exact hnot '\x7d' (by simp) (of_decide_eq_true h ▸ hc)
  rw [uuidHex, replace_of_not_mem (hnot 'u' (by simp)), replace_of_not_mem (hnot 'u' (by simp)),
    stripWhere_eq_self (fun c hc => hbraces c (List.mem_of_mem_head? hc))
      (fun c hc => hbraces c (List.mem_of_getLast? hc)), replace_single, uuidText_filter]

theorem intOfHex?_uuidDigits {id : Uuid} (hid : id < 2 ^ 128) :
    intOfHex? (uuidDigits id) = some (id : Int) := by
  have hpow : 16 ^ 32 = 2 ^ 128 := (Nat.pow_mul 2 4 32).symm
  rw [uuidDigits_eq_map, intOfHex?_digits (by simp; omega) (by simp),
    ofHexDigits_top id 32 32 (Nat.le_refl _), Nat.sub_self, Nat.pow_zero, Nat.div_one, hpow,
    Nat.mod_eq_of_lt hid]

/-- **A UUID's text reads back as the UUID.** -/
theorem uuid?_uuidText {id : Uuid} (hid : id < 2 ^ 128) : uuid? (uuidText id) = some id := by
  have hlength : (uuidDigits id).length = 32 := by simp [uuidDigits]
  have hrange : 0 ≤ (id : Int) ∧ (id : Int) < 2 ^ 128 := by
    refine ⟨Int.natCast_nonneg id, ?_⟩
    exact_mod_cast hid
  rw [uuid?, uuidHex_uuidText, intOfHex?_uuidDigits hid, if_neg (not_not_intro hlength),
    Option.bind_some, if_pos hrange]
  rfl

theorem uuidText_injective {a b : Uuid} (ha : a < 2 ^ 128) (hb : b < 2 ^ 128)
    (h : uuidText a = uuidText b) : a = b := by
  have hread : some a = some b := by rw [← uuid?_uuidText ha, h, uuid?_uuidText hb]
  exact Option.some.inj hread

theorem length_uuidText (id : Uuid) : (uuidText id).toList.length = 36 := by
  simp [uuidText, uuidDigits]

end Helpdesk.Python
