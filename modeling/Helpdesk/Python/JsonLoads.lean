/-
  File:      Helpdesk/Python/JsonLoads.lean
  Subject:   `json.loads(text)`.

  A lone surrogate, which no text here holds, is read as U+FFFD; depth is not bounded.

  * `string?_escaped`: the characters of a string read back from their escapes;
  * **`loads_dumps`**: an object of strings reads back from what `json.dumps` writes.
-/
import Helpdesk.Python.Decimal
import Helpdesk.Python.Dict
import Helpdesk.Python.JsonText

namespace Helpdesk.Python.Json

/-! ## 1. Strings -/

/-- A hexadecimal digit of an escape. -/
def escapeDigit? (c : Char) : Option Nat :=
  if '0' ≤ c ∧ c ≤ '9' then some (c.toNat - 48)
  else if 'a' ≤ c ∧ c ≤ 'f' then some (c.toNat - 87)
  else if 'A' ≤ c ∧ c ≤ 'F' then some (c.toNat - 55)
  else none

/-- The four digits after a backslash and `u`. -/
def codeUnit? : List Char → Option (Nat × List Char)
  | a :: b :: c :: d :: rest => do
      let a ← escapeDigit? a
      let b ← escapeDigit? b
      let c ← escapeDigit? c
      let d ← escapeDigit? d
      return (((a * 16 + b) * 16 + c) * 16 + d, rest)
  | _ => none

def isHighSurrogate (unit : Nat) : Bool := 0xd800 ≤ unit && unit ≤ 0xdbff

def isLowSurrogate (unit : Nat) : Bool := 0xdc00 ≤ unit && unit ≤ 0xdfff

/-- The escape of a low surrogate. -/
def lowSurrogate? : List Char → Option (Nat × List Char)
  | '\\' :: 'u' :: rest => (codeUnit? rest).filter fun p => isLowSurrogate p.1
  | _ => none

/-- The character of an escaped code unit; a pair of surrogates is one character. -/
def unicode? (cs : List Char) : Option (Char × List Char) := do
  let (unit, rest) ← codeUnit? cs
  if isHighSurrogate unit then
    match lowSurrogate? rest with
    | some (low, rest) =>
        some (Char.ofNat (0x10000 + (unit - 0xd800) * 1024 + (low - 0xdc00)), rest)
    | none => some (Char.ofNat 0xfffd, rest)
  else if isLowSurrogate unit then some (Char.ofNat 0xfffd, rest)
  else some (Char.ofNat unit, rest)

/-- What follows a backslash. -/
def escape? : List Char → Option (Char × List Char)
  | '"' :: rest => some ('"', rest)
  | '\\' :: rest => some ('\\', rest)
  | '/' :: rest => some ('/', rest)
  | 'b' :: rest => some (Char.ofNat 8, rest)
  | 'f' :: rest => some (Char.ofNat 12, rest)
  | 'n' :: rest => some ('\n', rest)
  | 'r' :: rest => some ('\r', rest)
  | 't' :: rest => some ('\t', rest)
  | 'u' :: rest => unicode? rest
  | _ => none

/-- The characters up to the closing quote; the first argument bounds their number. -/
def string? : Nat → List Char → Option (List Char × List Char)
  | 0, _ => none
  | _ + 1, [] => none
  | n + 1, c :: cs =>
      if c = '"' then some ([], cs)
      else if c = '\\' then do
        let (c, rest) ← escape? cs
        let (s, rest) ← string? n rest
        return (c :: s, rest)
      else if c.toNat < 0x20 then none
      else do
        let (s, rest) ← string? n cs
        return (c :: s, rest)

/-! ## 2. Numbers and constants -/

/-- The digits after a point, where there are any. -/
def fractionDigits : List Char → List Char × List Char
  | '.' :: rest =>
      let digits := rest.takeWhile Char.isDigit
      if digits = [] then ([], '.' :: rest) else (digits, rest.drop digits.length)
  | cs => ([], cs)

/-- The exponent, where there is one. -/
def exponent? : List Char → Option Int × List Char
  | c :: rest =>
      let (negative, unsigned) := match rest with
        | '-' :: rest => (true, rest)
        | '+' :: rest => (false, rest)
        | rest => (false, rest)
      let digits := unsigned.takeWhile Char.isDigit
      if (c = 'e' ∨ c = 'E') ∧ digits ≠ [] then
        let size : Int := Decimal.digitsValue digits
        (some (if negative then -size else size), unsigned.drop digits.length)
      else (none, c :: rest)
  | [] => (none, [])

/-- A number after its sign. -/
def matchNumber? (negative : Bool) (cs : List Char) : Option (Json × List Char) :=
  let whole := if cs.head? = some '0' then ['0'] else cs.takeWhile Char.isDigit
  if whole = [] then none
  else
    let (fraction, rest) := fractionDigits (cs.drop whole.length)
    let (exponent, rest) := exponent? rest
    let size := Decimal.digitsValue (whole ++ fraction)
    if fraction = [] ∧ exponent = none then
      some (.int (if negative then -size else size), rest)
    else if size = 0 then some (.float (if negative then .negZero else .finite 0 0), rest)
    else
      let value := (size : ℚ) * (10 : ℚ) ^ (exponent.getD 0 - fraction.length)
      some (.float (PyFloat.ofRat (if negative then -value else value)), rest)

/-- The words that are values. -/
def constants : List (String × Json) :=
  [("null", .null), ("true", .bool true), ("false", .bool false), ("NaN", .float .nan),
    ("Infinity", .float (.inf false)), ("-Infinity", .float (.inf true))]

def constant? (cs : List Char) : Option (Json × List Char) :=
  constants.findSome? fun p => (dropPrefix? p.1.toList cs).map fun rest => (p.2, rest)

/-! ## 3. Values -/

def isWhitespace (c : Char) : Bool := c = ' ' || c = '\t' || c = '\n' || c = '\r'

def skipWhitespace (cs : List Char) : List Char := cs.dropWhile isWhitespace

mutual

/-- `scan_once`; the first argument bounds the depth and the number of items. -/
def scanOnce : Nat → List Char → Option (Json × List Char)
  | 0, _ => none
  | n + 1, cs =>
      match cs with
      | '"' :: rest => (string? rest.length rest).map fun p => (.str (String.ofList p.1), p.2)
      | '\x7b' :: rest =>
          match skipWhitespace rest with
          | '\x7d' :: rest => some (.dict [], rest)
          | rest => (scanItems n rest).map fun p => (.dict (dictOf p.1), p.2)
      | '[' :: rest =>
          match skipWhitespace rest with
          | ']' :: rest => some (.list [], rest)
          | rest => (scanElements n rest).map fun p => (.list p.1, p.2)
      | cs =>
          (constant? cs).or (match cs with
            | '-' :: rest => matchNumber? true rest
            | cs => matchNumber? false cs)

def scanElements : Nat → List Char → Option (List Json × List Char)
  | 0, _ => none
  | n + 1, cs => do
      let (value, rest) ← scanOnce n cs
      match skipWhitespace rest with
      | ']' :: rest => some ([value], rest)
      | ',' :: rest =>
          let (values, rest) ← scanElements n (skipWhitespace rest)
          return (value :: values, rest)
      | _ => none

def scanItems : Nat → List Char → Option (List (String × Json) × List Char)
  | 0, _ => none
  | n + 1, cs =>
      match cs with
      | '"' :: rest => do
          let (key, rest) ← string? rest.length rest
          match skipWhitespace rest with
          | ':' :: rest =>
              let (value, rest) ← scanOnce n (skipWhitespace rest)
              match skipWhitespace rest with
              | '\x7d' :: rest => some ([(String.ofList key, value)], rest)
              | ',' :: rest =>
                  let (items, rest) ← scanItems n (skipWhitespace rest)
                  return ((String.ofList key, value) :: items, rest)
              | _ => none
          | _ => none
      | _ => none

end

/-- `json.loads(text)`; `none` is the `JSONDecodeError`. -/
def loads (text : String) : Option Json :=
  match scanOnce (2 * text.length + 2) (skipWhitespace text.toList) with
  | some (value, rest) => if skipWhitespace rest = [] then some value else none
  | none => none

/-! ## 4. Strings read back -/

theorem escapeDigit?_hexDigit {d : Nat} (hd : d < 16) : escapeDigit? (hexDigit d) = some d := by
  have hall : ∀ d < 16, escapeDigit? (hexDigit d) = some d := by decide
  exact hall d hd

/-- The four digits of a code unit. -/
theorem codeUnit?_digits {unit : Nat} (hunit : unit < 0x10000) (rest : List Char) :
    codeUnit? (hexDigit (unit / 4096 % 16) :: hexDigit (unit / 256 % 16) ::
      hexDigit (unit / 16 % 16) :: hexDigit (unit % 16) :: rest) = some (unit, rest) := by
  have hvalue : ((unit / 4096 % 16 * 16 + unit / 256 % 16) * 16 + unit / 16 % 16) * 16 + unit % 16 =
      unit := by omega
  simp only [codeUnit?, escapeDigit?_hexDigit (Nat.mod_lt _ (by decide : 0 < 16)),
    Option.bind_eq_bind, Option.bind_some, hvalue]
  rfl

/-- An escape of a code unit that is no surrogate. -/
theorem escape?_unit {c : Char} (hc : c.toNat < 0x10000) (rest : List Char) :
    escape? ((unicodeEscape c.toNat).tail ++ rest) = some (c, rest) := by
  have hvalid : c.toNat < 0xd800 ∨ 0xdfff < c.toNat := by
    rcases c.valid with h | h
    · exact .inl h
    · exact .inr h.1
  have hhigh : isHighSurrogate c.toNat = false := by
    unfold isHighSurrogate
    rcases hvalid with h | h <;> simp <;> omega
  have hlow : isLowSurrogate c.toNat = false := by
    unfold isLowSurrogate
    rcases hvalid with h | h <;> simp <;> omega
  show unicode? (hexDigit _ :: hexDigit _ :: hexDigit _ :: hexDigit _ :: rest) = _
  rw [unicode?, codeUnit?_digits hc]
  simp [hhigh, hlow, Char.ofNat_toNat]

/-- The two escapes of a character beyond the first plane. -/
theorem escape?_pair {c : Char} (hc : 0x10000 ≤ c.toNat) (rest : List Char) :
    escape? ((unicodeEscape (0xd800 + (c.toNat - 0x10000) / 1024)).tail ++
      (unicodeEscape (0xdc00 + (c.toNat - 0x10000) % 1024) ++ rest)) = some (c, rest) := by
  have hmax : c.toNat < 0x110000 := by
    rcases c.valid with h | h
    · exact Nat.lt_of_lt_of_le h (by decide)
    · exact h.2
  obtain ⟨offset, hoffset⟩ : ∃ offset, c.toNat = 0x10000 + offset := ⟨c.toNat - 0x10000, by omega⟩
  have hsub : c.toNat - 0x10000 = offset := by omega
  have hbound : offset < 0x100000 := by omega
  rw [hsub]
  have hhigh : isHighSurrogate (0xd800 + offset / 1024) = true := by
    simp only [isHighSurrogate, Bool.and_eq_true, decide_eq_true_eq]
    omega
  have hlow : isLowSurrogate (0xdc00 + offset % 1024) = true := by
    simp only [isLowSurrogate, Bool.and_eq_true, decide_eq_true_eq]
    omega
  have hsecond : lowSurrogate? (unicodeEscape (0xdc00 + offset % 1024) ++ rest) =
      some (0xdc00 + offset % 1024, rest) := by
    show (codeUnit? (hexDigit _ :: hexDigit _ :: hexDigit _ :: hexDigit _ :: rest)).filter _ = _
    rw [codeUnit?_digits (by omega)]
    simp [hlow]
  have hchar : Char.ofNat (0x10000 + (0xd800 + offset / 1024 - 0xd800) * 1024 +
      (0xdc00 + offset % 1024 - 0xdc00)) = c := by
    have hvalue : 0x10000 + (0xd800 + offset / 1024 - 0xd800) * 1024 +
        (0xdc00 + offset % 1024 - 0xdc00) = c.toNat := by omega
    rw [hvalue, Char.ofNat_toNat]
  show unicode? (hexDigit _ :: hexDigit _ :: hexDigit _ :: hexDigit _ ::
    (unicodeEscape (0xdc00 + offset % 1024) ++ rest)) = _
  rw [unicode?, codeUnit?_digits (by omega)]
  simp only [Option.bind_eq_bind, Option.bind_some, if_pos hhigh, hsecond, hchar]

/-- One character of a string. -/
theorem string?_escapeChar (c : Char) (n : Nat) (rest : List Char) :
    string? (n + 1) (escapeChar c ++ rest) =
      (string? n rest).map fun p => (c :: p.1, p.2) := by
  have hescaped : ∀ cs, escape? cs = some (c, rest) →
      string? (n + 1) ('\\' :: cs) = (string? n rest).map fun p => (c :: p.1, p.2) := by
    intro cs hcs
    rw [string?, if_neg (by decide), if_pos rfl, hcs]
    simp only [Option.bind_eq_bind, Option.bind_some]
    cases string? n rest <;> rfl
  unfold escapeChar
  split
  · next hc =>
      refine hescaped _ ?_
      rcases hc with rfl | rfl <;> rfl
  · next hplain =>
      split
      · next hc => exact hescaped _ (by rw [hc]; rfl)
      · split
        · next hc => exact hescaped _ (by rw [hc]; rfl)
        · split
          · next hc => exact hescaped _ (by rw [hc]; rfl)
          · split
            · next hc =>
                have hchar : c = Char.ofNat 8 := by rw [← hc, Char.ofNat_toNat]
                exact hescaped _ (by rw [hchar]; rfl)
            · split
              · next hc =>
                  have hchar : c = Char.ofNat 12 := by rw [← hc, Char.ofNat_toNat]
                  exact hescaped _ (by rw [hchar]; rfl)
              · split
                · next hc =>
                    rw [not_or] at hplain
                    show string? (n + 1) (c :: rest) = _
                    rw [string?, if_neg hplain.1, if_neg hplain.2, if_neg (by omega)]
                    cases string? n rest <;> rfl
                · split
                  · next hunit => exact hescaped _ (escape?_unit hunit rest)
                  · next hunit =>
                      rw [List.append_assoc]
                      exact hescaped _ (escape?_pair (by omega) rest)

/-- **A string reads back.** -/
theorem string?_escaped (s : List Char) (rest : List Char) : ∀ n, s.length < n →
    string? n (s.flatMap escapeChar ++ '"' :: rest) = some (s, rest) := by
  induction s with
  | nil =>
      intro n hn
      obtain ⟨n, rfl⟩ : ∃ m, n = m + 1 := ⟨n - 1, by simp at hn; omega⟩
      rfl
  | cons c s ih =>
      intro n hn
      obtain ⟨n, rfl⟩ : ∃ m, n = m + 1 := ⟨n - 1, by simp at hn; omega⟩
      rw [List.flatMap_cons, List.append_assoc, string?_escapeChar,
        ih n (by simpa using hn)]
      rfl

/-! ## 5. Objects of strings read back -/

theorem length_le_escaped (s : List Char) : s.length ≤ (s.flatMap escapeChar).length := by
  induction s with
  | nil => exact Nat.le_refl _
  | cons c s ih =>
      have hone : 1 ≤ (escapeChar c).length := by
        unfold escapeChar unicodeEscape
        repeat' split
        all_goals simp
      rw [List.flatMap_cons, List.length_append, List.length_cons]
      omega

/-- What stands after the opening quote. -/
theorem string?_dumpsString (s : String) (rest : List Char) :
    string? (s.toList.flatMap escapeChar ++ '"' :: rest).length
      (s.toList.flatMap escapeChar ++ '"' :: rest) = some (s.toList, rest) := by
  refine string?_escaped _ _ _ ?_
  have hle := length_le_escaped s.toList
  rw [List.length_append, List.length_cons]
  omega

theorem scanOnce_dumpsString (s : String) (n : Nat) (rest : List Char) :
    scanOnce (n + 1) ((dumpsString s).toList ++ rest) = some (.str s, rest) := by
  have hchars : (dumpsString s).toList ++ rest =
      '"' :: (s.toList.flatMap escapeChar ++ '"' :: rest) := by
    simp [dumpsString]
  rw [hchars, scanOnce, string?_dumpsString]
  simp

/-- A text that begins with no white space. -/
theorem skipWhitespace_cons {c : Char} (hc : isWhitespace c = false) (cs : List Char) :
    skipWhitespace (c :: cs) = c :: cs := by
  rw [skipWhitespace, List.dropWhile_cons_of_neg (by simp [hc])]

theorem skipWhitespace_dumpsString (s : String) (rest : List Char) :
    skipWhitespace ((dumpsString s).toList ++ rest) = (dumpsString s).toList ++ rest := by
  simp only [dumpsString, String.toList_ofList, List.cons_append, List.nil_append]
  exact skipWhitespace_cons (by decide) _

/-- The items of an object of strings. -/
def stringItems (items : List (String × String)) : List (String × Json) :=
  items.map fun p => (p.1, .str p.2)

/-- One item of an object. -/
theorem scanItems_item (key value : String) (n : Nat) (rest : List Char) :
    scanItems (n + 2) ((dumpsString key).toList ++ ':' :: ((dumpsString value).toList ++ rest)) =
      match skipWhitespace rest with
      | '\x7d' :: rest => some ([(key, .str value)], rest)
      | ',' :: rest =>
          (scanItems (n + 1) (skipWhitespace rest)).map fun p => ((key, .str value) :: p.1, p.2)
      | _ => none := by
  have hchars : (dumpsString key).toList ++ ':' :: ((dumpsString value).toList ++ rest) =
      '"' :: (key.toList.flatMap escapeChar ++ '"' :: ':' :: ((dumpsString value).toList ++ rest)) := by
    simp [dumpsString]
  rw [hchars, scanItems, string?_dumpsString]
  simp only [Option.bind_eq_bind, Option.bind_some, skipWhitespace_cons (by decide : isWhitespace ':' = false),
    skipWhitespace_dumpsString, scanOnce_dumpsString, String.ofList_toList]
  split
  · rfl
  · cases scanItems (n + 1) _ <;> rfl
  · rfl

/-- The items begin with the quote of the first key. -/
theorem dumpsItems_quote (first : String × String) (items : List (String × String)) :
    ∃ cs, (dumpsItems (stringItems (first :: items))).toList = '"' :: cs := by
  cases items with
  | nil => simp [stringItems, dumpsItems, dumpsString]
  | cons second items => simp [stringItems, dumpsItems, dumpsString]

theorem length_le_dumpsItems : ∀ items : List (String × String),
    items.length ≤ (dumpsItems (stringItems items)).toList.length
  | [] => Nat.zero_le _
  | [(key, value)] => by
      simp [stringItems, dumpsItems, dumpsString]
  | (key, value) :: second :: items => by
      have ih := length_le_dumpsItems (second :: items)
      have hchars : (dumpsItems (stringItems ((key, value) :: second :: items))).toList =
          (dumpsString key ++ ":" ++ dumps (.str value)).toList ++
            ',' :: (dumpsItems (stringItems (second :: items))).toList := by
        simp [stringItems, dumpsItems, dumps]
      rw [hchars]
      simp only [List.length_append, List.length_cons] at ih ⊢
      omega

theorem scanItems_dumps (rest : List Char) : ∀ (items : List (String × String)) (n : Nat),
    items ≠ [] → items.length < n →
      scanItems n ((dumpsItems (stringItems items)).toList ++ '\x7d' :: rest) =
        some (stringItems items, rest)
  | [], _, hne, _ => absurd rfl hne
  | [(key, value)], n, _, hn => by
      obtain ⟨n, rfl⟩ : ∃ m, n = m + 2 := ⟨n - 2, by simp at hn; omega⟩
      have hchars : (dumpsItems (stringItems [(key, value)])).toList ++ '\x7d' :: rest =
          (dumpsString key).toList ++ ':' :: ((dumpsString value).toList ++ '\x7d' :: rest) := by
        simp [stringItems, dumpsItems, dumps]
      rw [hchars, scanItems_item, skipWhitespace_cons (by decide)]
      rfl
  | (key, value) :: second :: items, n, _, hn => by
      obtain ⟨n, rfl⟩ : ∃ m, n = m + 2 := ⟨n - 2, by simp at hn; omega⟩
      have hrest : stringItems (second :: items) ≠ [] := by simp [stringItems]
      have hchars : (dumpsItems (stringItems ((key, value) :: second :: items))).toList ++
          '\x7d' :: rest =
          (dumpsString key).toList ++ ':' :: ((dumpsString value).toList ++
            ',' :: ((dumpsItems (stringItems (second :: items))).toList ++ '\x7d' :: rest)) := by
        simp [stringItems, dumpsItems, dumps]
      have hstart : skipWhitespace ((dumpsItems (stringItems (second :: items))).toList ++
          '\x7d' :: rest) = (dumpsItems (stringItems (second :: items))).toList ++ '\x7d' :: rest := by
        obtain ⟨cs, hcs⟩ := dumpsItems_quote second items
        rw [hcs]
        exact skipWhitespace_cons (by decide) _
      have ih := scanItems_dumps rest (second :: items) (n + 1) (List.cons_ne_nil _ _)
        (by simpa using hn)
      rw [hchars, scanItems_item, skipWhitespace_cons (by decide)]
      simp only [hstart, ih]
      rfl

/-- **An object of strings reads back.** -/
theorem loads_dumps {items : List (String × String)} (h : (items.map Prod.fst).Nodup) :
    loads (dumps (.dict (stringItems items))) = some (.dict (stringItems items)) := by
  cases items with
  | nil => rfl
  | cons first items =>
      have hchars : (dumps (.dict (stringItems (first :: items)))).toList =
          '\x7b' :: ((dumpsItems (stringItems (first :: items))).toList ++ ['\x7d']) := by
        simp [dumps]
      obtain ⟨cs, hcs⟩ := dumpsItems_quote first items
      have hkeys : ((stringItems (first :: items)).map Prod.fst).Nodup := by
        simpa [stringItems, Function.comp_def] using h
      have hlength := length_le_dumpsItems (first :: items)
      have hfuel : (first :: items).length < 2 * (dumps (.dict (stringItems (first :: items)))).length + 1 := by
        rw [← String.length_toList, hchars]
        simp only [List.length_append, List.length_cons] at hlength ⊢
        omega
      have hscan := scanItems_dumps [] (first :: items) _ (List.cons_ne_nil _ _) hfuel
      rw [hcs] at hscan
      rw [loads, hchars, skipWhitespace_cons (by decide), hcs, scanOnce,
        List.cons_append, skipWhitespace_cons (by decide)]
      rw [List.cons_append] at hscan
      show (match (scanItems _ ('"' :: (cs ++ ['\x7d']))).map
          fun p => (Json.dict (dictOf p.1), p.2) with
        | some (value, rest) => if skipWhitespace rest = [] then some value else none
        | none => none) = _
      rw [hscan, Option.map_some, dictOf_self hkeys]
      rfl

end Helpdesk.Python.Json
