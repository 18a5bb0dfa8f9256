/-
  File:      Helpdesk/Python/JsonBytes.lean
  Subject:   `json.loads(data)` for bytes.

  The encoding is told from the first bytes, and lone surrogates pass. A text here holds
  no surrogate: one that passes is U+FFFD, as in an escape.

  * `decodeJson_ascii`: a text of ASCII characters reads back from its bytes;
  * **`loadsBytes_dumps`**: so does an object of strings that was written.
-/
import Helpdesk.Python.Base64
import Helpdesk.Python.JsonLoads

namespace Helpdesk.Python.Json

/-! ## 1. Characters -/

/-- The character of a code point. -/
def codePoint (n : Nat) : Char := if n.isValidChar then Char.ofNat n else '\ufffd'

/-- The first character of UTF-8: how many bytes follow, what the first one holds of the
    code point, and the least code point that needs so many. -/
def utf8Char? : List UInt8 → Option (Char × List UInt8)
  | [] => none
  | a :: rest =>
      let lead := a.toNat
      let (size, high, least) :=
        if lead < 0x80 then (0, lead, 0)
        else if 0xc0 ≤ lead ∧ lead < 0xe0 then (1, lead % 32, 0x80)
        else if 0xe0 ≤ lead ∧ lead < 0xf0 then (2, lead % 16, 0x800)
        else if 0xf0 ≤ lead ∧ lead < 0xf8 then (3, lead % 8, 0x10000)
        else (0, 0x110000, 0)
      let tail := rest.take size
      let n := tail.foldl (fun n b => n * 64 + b.toNat % 64) high
      if tail.length = size ∧ (tail.all fun b => b.toNat / 64 = 2) ∧ least ≤ n ∧ n < 0x110000 then
        some (codePoint n, rest.drop size)
      else none

/-- A number of two bytes. -/
def unit16 (big : Bool) (a b : UInt8) : Nat :=
  if big then a.toNat * 256 + b.toNat else b.toNat * 256 + a.toNat

/-- The first character of UTF-16. -/
def utf16Char? (big : Bool) : List UInt8 → Option (Char × List UInt8)
  | a :: b :: c :: d :: rest =>
      let high := unit16 big a b
      let low := unit16 big c d
      if isHighSurrogate high ∧ isLowSurrogate low then
        some (codePoint (0x10000 + (high - 0xd800) * 1024 + (low - 0xdc00)), rest)
      else some (codePoint high, c :: d :: rest)
  | a :: b :: rest => some (codePoint (unit16 big a b), rest)
  | _ => none

/-- The first character of UTF-32. -/
def utf32Char? (big : Bool) : List UInt8 → Option (Char × List UInt8)
  | a :: b :: c :: d :: rest =>
      let n := if big then unit16 true a b * 65536 + unit16 true c d
        else unit16 false c d * 65536 + unit16 false a b
      if n < 0x110000 then some (codePoint n, rest) else none
  | _ => none

/-- All the characters; the first argument bounds their number. -/
def decodeWith (char? : List UInt8 → Option (Char × List UInt8)) :
    Nat → List UInt8 → Option (List Char)
  | _, [] => some []
  | 0, _ => none
  | n + 1, data => do
      let (c, rest) ← char? data
      let cs ← decodeWith char? n rest
      return c :: cs

/-! ## 2. Bytes -/

/-- `data.decode(detect_encoding(data), "surrogatepass")`; `none` is the
    `UnicodeDecodeError`. -/
def decodeJson (data : List UInt8) : Option (List Char) :=
  let decode := fun char? skipped => decodeWith char? data.length (data.drop skipped)
  if data.take 4 = [0x00, 0x00, 0xfe, 0xff] then decode (utf32Char? true) 4
  else if data.take 4 = [0xff, 0xfe, 0x00, 0x00] then decode (utf32Char? false) 4
  else if data.take 2 = [0xfe, 0xff] then decode (utf16Char? true) 2
  else if data.take 2 = [0xff, 0xfe] then decode (utf16Char? false) 2
  else if data.take 3 = [0xef, 0xbb, 0xbf] then decode utf8Char? 3
  else
    match data with
    | a :: b :: c :: d :: _ =>
        if a = 0 then (if b = 0 then decode (utf32Char? true) 0 else decode (utf16Char? true) 0)
        else if b = 0 then
          (if c = 0 ∧ d = 0 then decode (utf32Char? false) 0 else decode (utf16Char? false) 0)
        else decode utf8Char? 0
    | [a, b] =>
        if a = 0 then decode (utf16Char? true) 0
        else if b = 0 then decode (utf16Char? false) 0
        else decode utf8Char? 0
    | _ => decode utf8Char? 0

/-- `json.loads(data)`; `none` is the `ValueError` of the bytes or of the text. -/
def loadsBytes (data : List UInt8) : Option Json :=
  (decodeJson data).bind fun text => loads (String.ofList text)

/-! ## 3. ASCII -/

/-- A character that is one byte, and not the null character. -/
def Ascii (c : Char) : Prop := 1 ≤ c.toNat ∧ c.toNat < 128

theorem encodeUtf8_ascii {text : List Char} (h : ∀ c ∈ text, Ascii c) :
    encodeUtf8 (String.ofList text) = text.map fun c => UInt8.ofNat c.toNat := by
  have hbytes : encodeUtf8 (String.ofList text) = text.flatMap String.utf8EncodeChar := by
    rw [encodeUtf8, String.toByteArray_ofList, List.utf8Encode, List.toList_data_toByteArray]
  rw [hbytes]
  clear hbytes
  induction text with
  | nil => rfl
  | cons c text ih =>
      rw [List.forall_mem_cons] at h
      have hsize : c.utf8Size = 1 := by
        have hlt := h.1.2
        rw [Char.utf8Size_eq_one_iff, UInt32.le_iff_toNat_le]
        exact Nat.le_of_lt_succ hlt
      rw [List.flatMap_cons, String.utf8EncodeChar_eq_singleton hsize, ih h.2]
      rfl

theorem utf8Char?_ascii {c : Char} (h : Ascii c) (rest : List UInt8) :
    utf8Char? (UInt8.ofNat c.toNat :: rest) = some (c, rest) := by
  have hbyte : (UInt8.ofNat c.toNat).toNat = c.toNat := by
    rw [UInt8.toNat_ofNat']
    exact Nat.mod_eq_of_lt (h.2.trans (by decide))
  have hchar : codePoint c.toNat = c := by
    rw [codePoint, if_pos (Or.inl (h.2.trans (by decide))), Char.ofNat_toNat]
  have hlow : c.toNat < 0x110000 := h.2.trans (by decide)
  rw [utf8Char?, hbyte]
  simp [h.2, hchar, hlow]

theorem decodeWith_ascii {text : List Char} (h : ∀ c ∈ text, Ascii c) :
    decodeWith utf8Char? text.length (text.map fun c => UInt8.ofNat c.toNat) = some text := by
  induction text with
  | nil => rfl
  | cons c text ih =>
      rw [List.forall_mem_cons] at h
      rw [List.map_cons, List.length_cons, decodeWith, utf8Char?_ascii h.1]
      · simp only [Option.bind_eq_bind, Option.bind_some, ih h.2]
        rfl
      · exact fun hnil => nomatch hnil

/-- **ASCII reads back**: no first byte is one of a mark or null. -/
theorem decodeJson_ascii {text : List Char} (h : ∀ c ∈ text, Ascii c) :
    decodeJson (encodeUtf8 (String.ofList text)) = some text := by
  have hbyte : ∀ b ∈ text.map (fun c => UInt8.ofNat c.toNat), b ≠ 0 ∧ b < 128 := by
    intro b hb
    obtain ⟨c, hc, rfl⟩ := List.mem_map.mp hb
    have hnat : (UInt8.ofNat c.toNat).toNat = c.toNat := by
      rw [UInt8.toNat_ofNat']
      exact Nat.mod_eq_of_lt ((h c hc).2.trans (by decide))
    refine ⟨fun hzero => ?_, ?_⟩
    · have hpos := (h c hc).1
      rw [← hnat, hzero] at hpos
      exact absurd hpos (by decide)
    · rw [UInt8.lt_iff_toNat_lt, hnat]
      exact (h c hc).2
  have hdecode := decodeWith_ascii h
  rw [encodeUtf8_ascii h]
  generalize hdata : text.map (fun c => UInt8.ofNat c.toNat) = data at hbyte hdecode ⊢
  have hlength : data.length = text.length := by rw [← hdata, List.length_map]
  have hmark : ∀ (n : Nat) (first : UInt8) (mark : List UInt8), (first = 0 ∨ 128 ≤ first) →
      data.take n ≠ first :: mark := by
    intro n first mark hfirst heq
    have hmem : first ∈ data := List.mem_of_mem_take (heq ▸ List.mem_cons_self)
    obtain ⟨hne, hlt⟩ := hbyte first hmem
    rcases hfirst with hzero | hhigh
    · exact hne hzero
    · exact absurd hlt (UInt8.not_lt.mpr hhigh)
  unfold decodeJson
  simp only [hmark 4 0x00 _ (.inl rfl), hmark 4 0xff _ (.inr (by decide)),
    hmark 2 0xfe _ (.inr (by decide)), hmark 2 0xff _ (.inr (by decide)),
    hmark 3 0xef _ (.inr (by decide)), if_false, hlength, List.drop_zero]
  split
  · have ha := (hbyte _ List.mem_cons_self).1
    have hb := (hbyte _ (List.mem_cons_of_mem _ List.mem_cons_self)).1
    rw [if_neg ha, if_neg hb]
    exact hdecode
  · have ha := (hbyte _ List.mem_cons_self).1
    have hb := (hbyte _ (List.mem_cons_of_mem _ List.mem_cons_self)).1
    rw [if_neg ha, if_neg hb]
    exact hdecode
  · exact hdecode

/-! ## 4. What was written -/

theorem ascii_hexDigit {d : Nat} (hd : d < 16) : Ascii (hexDigit d) := by
  have hall : ∀ d < 16, 1 ≤ (hexDigit d).toNat ∧ (hexDigit d).toNat < 128 := by decide
  exact hall d hd

theorem ascii_unicodeEscape {unit : Nat} {c : Char} (h : c ∈ unicodeEscape unit) : Ascii c := by
  have hdigit : ∀ n, Ascii (hexDigit (n % 16)) := fun n => ascii_hexDigit (Nat.mod_lt n (by decide))
  simp only [unicodeEscape, List.mem_cons, List.not_mem_nil, or_false] at h
  rcases h with rfl | rfl | rfl | rfl | rfl | rfl
  · exact ⟨by decide, by decide⟩
  · exact ⟨by decide, by decide⟩
  all_goals exact hdigit _

theorem ascii_escapeChar {c d : Char} (h : d ∈ escapeChar c) : Ascii d := by
  unfold escapeChar at h
  split at h
  · next hc =>
      rcases hc with rfl | rfl
      all_goals
        simp only [List.mem_cons, List.not_mem_nil, or_false] at h
        rcases h with rfl | rfl
        all_goals exact ⟨by decide, by decide⟩
  iterate 5
    split at h
    · simp only [List.mem_cons, List.not_mem_nil, or_false] at h
      rcases h with rfl | rfl
      all_goals exact ⟨by decide, by decide⟩
  split at h
  · next hc =>
      rw [List.mem_singleton.mp h]
      exact ⟨Nat.le_trans (by decide) hc.1, Nat.lt_of_le_of_lt hc.2 (by decide)⟩
  split at h
  · exact ascii_unicodeEscape h
  · rcases List.mem_append.mp h with h | h
    · exact ascii_unicodeEscape h
    · exact ascii_unicodeEscape h

theorem ascii_dumpsString (s : String) : ∀ c ∈ (dumpsString s).toList, Ascii c := by
  intro c hc
  simp only [dumpsString, String.toList_ofList, List.mem_append, List.mem_singleton,
    List.mem_flatMap] at hc
  rcases hc with (rfl | ⟨d, -, hc⟩) | rfl
  · exact ⟨by decide, by decide⟩
  · exact ascii_escapeChar hc
  · exact ⟨by decide, by decide⟩

theorem ascii_dumpsItems : ∀ items : List (String × String),
    ∀ c ∈ (dumpsItems (stringItems items)).toList, Ascii c
  | [] => by simp [stringItems, dumpsItems]
  | [(key, value)] => by
      intro c hc
      simp only [stringItems, List.map_cons, List.map_nil, dumpsItems, dumps, String.toList_append,
        List.mem_append] at hc
      rcases hc with (hc | hc) | hc
      · exact ascii_dumpsString key c hc
      · cases List.mem_singleton.mp hc
        exact ⟨by decide, by decide⟩
      · exact ascii_dumpsString value c hc
  | (key, value) :: next :: items => by
      intro c hc
      have ih := ascii_dumpsItems (next :: items)
      simp only [stringItems, List.map_cons, dumpsItems, dumps, String.toList_append,
        List.mem_append] at hc ih
      rcases hc with (((hc | hc) | hc) | hc) | hc
      · exact ascii_dumpsString key c hc
      · cases List.mem_singleton.mp hc
        exact ⟨by decide, by decide⟩
      · exact ascii_dumpsString value c hc
      · cases List.mem_singleton.mp hc
        exact ⟨by decide, by decide⟩
      · exact ih c hc

/-- **An object of strings reads back from the bytes it is written in.** -/
theorem loadsBytes_dumps {items : List (String × String)} (h : (items.map Prod.fst).Nodup) :
    loadsBytes (encodeUtf8 (dumps (.dict (stringItems items)))) =
      some (.dict (stringItems items)) := by
  have hascii : ∀ c ∈ (dumps (.dict (stringItems items))).toList, Ascii c := by
    intro c hc
    simp only [dumps, String.toList_append, List.mem_append] at hc
    rcases hc with (hc | hc) | hc
    · cases List.mem_singleton.mp hc
      exact ⟨by decide, by decide⟩
    · exact ascii_dumpsItems items c hc
    · cases List.mem_singleton.mp hc
      exact ⟨by decide, by decide⟩
  have hdecode := decodeJson_ascii hascii
  rw [String.ofList_toList] at hdecode
  rw [loadsBytes, hdecode, Option.bind_some, String.ofList_toList, loads_dumps h]

end Helpdesk.Python.Json
