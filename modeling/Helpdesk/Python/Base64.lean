/-
  File:      Helpdesk/Python/Base64.lean
  Subject:   `base64.urlsafe_b64encode` and `base64.urlsafe_b64decode`.

  The decoder is `binascii.a2b_base64` without its strict mode: characters outside the
  alphabet are skipped, a padding that completes its quad ends the text.

  * **`urlsafeB64decode_stripped`**: bytes read back from their text without padding,
    padded again by its length.
-/
import Mathlib.Data.List.DropRight
import Mathlib.Tactic.Common

namespace Helpdesk.Python

/-! ## 1. Digits -/

def base64Alphabet : List Char :=
  "ABCDEFGHIJKLMNOPQRSTUVWXYZabcdefghijklmnopqrstuvwxyz0123456789-_".toList

/-- The digit of six bits. -/
def base64Digit (n : Nat) : Char := base64Alphabet.getD n 'A'

/-- The six bits of a digit, of either alphabet. -/
def base64Value? (c : Char) : Option Nat :=
  if 'A' ≤ c ∧ c ≤ 'Z' then some (c.toNat - 65)
  else if 'a' ≤ c ∧ c ≤ 'z' then some (c.toNat - 71)
  else if '0' ≤ c ∧ c ≤ '9' then some (c.toNat + 4)
  else if c = '-' ∨ c = '+' then some 62
  else if c = '_' ∨ c = '/' then some 63
  else none

theorem base64Digit_spec {n : Nat} (h : n < 64) :
    base64Value? (base64Digit n) = some n ∧ base64Digit n ≠ '=' ∧ (base64Digit n).toNat < 128 := by
  have hall : ∀ n < 64, base64Value? (base64Digit n) = some n ∧ base64Digit n ≠ '=' ∧
      (base64Digit n).toNat < 128 := by decide +kernel
  exact hall n h

/-! ## 2. The two functions -/

/-- `base64.urlsafe_b64encode(data)`, as text. -/
def urlsafeB64encode : List UInt8 → List Char
  | [] => []
  | [a] => [base64Digit (a.toNat / 4), base64Digit (a.toNat % 4 * 16), '=', '=']
  | [a, b] =>
      [base64Digit (a.toNat / 4), base64Digit (a.toNat % 4 * 16 + b.toNat / 16),
        base64Digit (b.toNat % 16 * 4), '=']
  | a :: b :: c :: rest =>
      base64Digit (a.toNat / 4) :: base64Digit (a.toNat % 4 * 16 + b.toNat / 16) ::
        base64Digit (b.toNat % 16 * 4 + c.toNat / 64) :: base64Digit (c.toNat % 64) ::
          urlsafeB64encode rest

/-- `binascii.a2b_base64`: the place in the current quad, the bits of the digit before
    that no byte has yet, and the paddings since. -/
def a2bBase64 (place left pads : Nat) : List Char → Option (List UInt8)
  | [] => if place = 0 then some [] else none
  | c :: cs =>
      if c = '=' then
        if 2 ≤ place ∧ 4 ≤ place + (pads + 1) then some []
        else a2bBase64 place left (if 2 ≤ place then pads + 1 else pads) cs
      else match base64Value? c with
      | none => a2bBase64 place left pads cs
      | some v =>
          match place with
          | 0 => a2bBase64 1 v 0 cs
          | 1 => (a2bBase64 2 (v % 16) 0 cs).map (UInt8.ofNat (left * 4 + v / 16) :: ·)
          | 2 => (a2bBase64 3 (v % 4) 0 cs).map (UInt8.ofNat (left * 16 + v / 4) :: ·)
          | _ => (a2bBase64 0 0 0 cs).map (UInt8.ofNat (left * 64 + v) :: ·)

/-- `base64.urlsafe_b64decode(text)`; `none` is the `ValueError`. -/
def urlsafeB64decode (text : List Char) : Option (List UInt8) :=
  if text.all (·.toNat < 128) then a2bBase64 0 0 0 text else none

/-! ## 3. Texts without padding -/

/-- `text.rstrip("=")` -/
def stripPadding (text : List Char) : List Char := text.rdropWhile (· = '=')

/-- `text + "=" * (-len(text) % 4)` -/
def withPadding (text : List Char) : List Char :=
  text ++ List.replicate ((4 - text.length % 4) % 4) '='

theorem stripPadding_digits {text : List Char} (h : ∀ c ∈ text, c ≠ '=') (n : Nat) :
    stripPadding (text ++ List.replicate n '=') = text := by
  induction n with
  | zero =>
      rw [List.replicate_zero, List.append_nil, stripPadding, List.rdropWhile_eq_self_iff]
      intro hne
      simpa using h _ (List.getLast_mem hne)
  | succ n ih =>
      rw [List.replicate_succ', ← List.append_assoc, stripPadding, List.rdropWhile_concat_pos _ _ _
        (by decide)]
      exact ih

/-- The digits of a text, without padding. -/
def base64Digits : List UInt8 → List Char
  | [] => []
  | [a] => [base64Digit (a.toNat / 4), base64Digit (a.toNat % 4 * 16)]
  | [a, b] =>
      [base64Digit (a.toNat / 4), base64Digit (a.toNat % 4 * 16 + b.toNat / 16),
        base64Digit (b.toNat % 16 * 4)]
  | a :: b :: c :: rest =>
      base64Digit (a.toNat / 4) :: base64Digit (a.toNat % 4 * 16 + b.toNat / 16) ::
        base64Digit (b.toNat % 16 * 4 + c.toNat / 64) :: base64Digit (c.toNat % 64) ::
          base64Digits rest

theorem urlsafeB64encode_eq (bytes : List UInt8) :
    ∃ n, urlsafeB64encode bytes = base64Digits bytes ++ List.replicate n '=' := by
  fun_induction urlsafeB64encode bytes with
  | case1 => exact ⟨0, rfl⟩
  | case2 a => exact ⟨2, rfl⟩
  | case3 a b => exact ⟨1, rfl⟩
  | case4 a b c rest ih =>
      obtain ⟨n, hn⟩ := ih
      exact ⟨n, by rw [hn]; rfl⟩

section Digits

variable (a b c : UInt8)

theorem first_lt : a.toNat / 4 < 64 := by
  have ha := a.toNat_lt
  omega

theorem second_lt : a.toNat % 4 * 16 + b.toNat / 16 < 64 := by
  have hb := b.toNat_lt
  omega

theorem third_lt : b.toNat % 16 * 4 + c.toNat / 64 < 64 := by
  have hc := c.toNat_lt
  omega

theorem fourth_lt : c.toNat % 64 < 64 := Nat.mod_lt _ (by decide)

end Digits

/-- Every character is the digit of six bits. -/
theorem mem_base64Digits {bytes : List UInt8} {c : Char} (h : c ∈ base64Digits bytes) :
    ∃ n < 64, c = base64Digit n := by
  fun_induction base64Digits bytes with
  | case1 => cases h
  | case2 a =>
      simp only [List.mem_cons, List.not_mem_nil, or_false] at h
      rcases h with rfl | rfl
      · exact ⟨_, first_lt a, rfl⟩
      · exact ⟨_, by omega, rfl⟩
  | case3 a b =>
      simp only [List.mem_cons, List.not_mem_nil, or_false] at h
      rcases h with rfl | rfl | rfl
      · exact ⟨_, first_lt a, rfl⟩
      · exact ⟨_, second_lt a b, rfl⟩
      · exact ⟨_, by omega, rfl⟩
  | case4 a b c' rest ih =>
      simp only [List.mem_cons] at h
      rcases h with rfl | rfl | rfl | rfl | h
      · exact ⟨_, first_lt a, rfl⟩
      · exact ⟨_, second_lt a b, rfl⟩
      · exact ⟨_, third_lt b c', rfl⟩
      · exact ⟨_, fourth_lt c', rfl⟩
      · exact ih h

theorem stripPadding_encode (bytes : List UInt8) :
    stripPadding (urlsafeB64encode bytes) = base64Digits bytes := by
  obtain ⟨n, hn⟩ := urlsafeB64encode_eq bytes
  rw [hn]
  refine stripPadding_digits (fun c hc => ?_) n
  obtain ⟨m, hm, rfl⟩ := mem_base64Digits hc
  exact (base64Digit_spec hm).2.1

/-- One digit of a text. -/
theorem a2bBase64_digit {n : Nat} (hn : n < 64) (place left pads : Nat) (cs : List Char) :
    a2bBase64 place left pads (base64Digit n :: cs) =
      match place with
      | 0 => a2bBase64 1 n 0 cs
      | 1 => (a2bBase64 2 (n % 16) 0 cs).map (UInt8.ofNat (left * 4 + n / 16) :: ·)
      | 2 => (a2bBase64 3 (n % 4) 0 cs).map (UInt8.ofNat (left * 16 + n / 4) :: ·)
      | _ => (a2bBase64 0 0 0 cs).map (UInt8.ofNat (left * 64 + n) :: ·) := by
  obtain ⟨hvalue, hne, -⟩ := base64Digit_spec hn
  rw [a2bBase64.eq_def]
  simp only [if_neg hne, hvalue]

/-- The bytes of four digits. -/
theorem ofNat_bytes (a b c : UInt8) :
    UInt8.ofNat (a.toNat / 4 * 4 + (a.toNat % 4 * 16 + b.toNat / 16) / 16) = a ∧
      UInt8.ofNat ((a.toNat % 4 * 16 + b.toNat / 16) % 16 * 16 +
        (b.toNat % 16 * 4 + c.toNat / 64) / 4) = b ∧
      UInt8.ofNat ((b.toNat % 16 * 4 + c.toNat / 64) % 4 * 64 + c.toNat % 64) = c := by
  have hb := b.toNat_lt
  have hc := c.toNat_lt
  have hfirst : a.toNat / 4 * 4 + (a.toNat % 4 * 16 + b.toNat / 16) / 16 = a.toNat := by omega
  have hsecond : (a.toNat % 4 * 16 + b.toNat / 16) % 16 * 16 +
      (b.toNat % 16 * 4 + c.toNat / 64) / 4 = b.toNat := by omega
  have hthird : (b.toNat % 16 * 4 + c.toNat / 64) % 4 * 64 + c.toNat % 64 = c.toNat := by omega
  rw [hfirst, hsecond, hthird]
  simp

/-- The digits of bytes, padded by their number, read as the bytes. -/
theorem a2bBase64_digits (bytes : List UInt8) :
    a2bBase64 0 0 0 (withPadding (base64Digits bytes)) = some bytes := by
  fun_induction base64Digits bytes with
  | case1 => rfl
  | case2 a =>
      obtain ⟨hfirst, -, -⟩ := ofNat_bytes a 0 0
      show a2bBase64 0 0 0 (base64Digit _ :: base64Digit _ :: ['=', '=']) = _
      rw [a2bBase64_digit (first_lt a)]
      show a2bBase64 1 _ 0 _ = _
      rw [a2bBase64_digit (by omega)]
      simpa [a2bBase64] using hfirst
  | case3 a b =>
      obtain ⟨hfirst, hsecond, -⟩ := ofNat_bytes a b 0
      show a2bBase64 0 0 0 (base64Digit _ :: base64Digit _ :: base64Digit _ :: ['=']) = _
      rw [a2bBase64_digit (first_lt a)]
      show a2bBase64 1 _ 0 _ = _
      rw [a2bBase64_digit (second_lt a b)]
      show (a2bBase64 2 _ 0 _).map _ = _
      rw [a2bBase64_digit (by omega)]
      simpa [a2bBase64, hfirst] using hsecond
  | case4 a b c rest ih =>
      obtain ⟨hfirst, hsecond, hthird⟩ := ofNat_bytes a b c
      have hpad : withPadding (base64Digit (a.toNat / 4) :: base64Digit (a.toNat % 4 * 16 + b.toNat / 16) ::
          base64Digit (b.toNat % 16 * 4 + c.toNat / 64) :: base64Digit (c.toNat % 64) ::
            base64Digits rest) =
          base64Digit (a.toNat / 4) :: base64Digit (a.toNat % 4 * 16 + b.toNat / 16) ::
          base64Digit (b.toNat % 16 * 4 + c.toNat / 64) :: base64Digit (c.toNat % 64) ::
            withPadding (base64Digits rest) := by
        have hlength : ∀ n, (4 - (n + 1 + 1 + 1 + 1) % 4) % 4 = (4 - n % 4) % 4 := by
          intro n
          omega
        unfold withPadding
        simp only [List.length_cons, hlength, List.cons_append]
      rw [hpad, a2bBase64_digit (first_lt a)]
      show a2bBase64 1 _ 0 _ = _
      rw [a2bBase64_digit (second_lt a b)]
      show (a2bBase64 2 _ 0 _).map _ = _
      rw [a2bBase64_digit (third_lt b c)]
      show ((a2bBase64 3 _ 0 _).map _).map _ = _
      rw [a2bBase64_digit (fourth_lt c)]
      show (((a2bBase64 0 0 0 _).map _).map _).map _ = _
      rw [ih, hfirst, hsecond, hthird]
      rfl

/-- **A text without padding reads back**, once it is padded by its length. -/
theorem urlsafeB64decode_stripped (bytes : List UInt8) :
    urlsafeB64decode (withPadding (stripPadding (urlsafeB64encode bytes))) = some bytes := by
  have hascii : (withPadding (base64Digits bytes)).all (·.toNat < 128) = true := by
    rw [List.all_eq_true]
    intro c hc
    rcases List.mem_append.mp hc with hc | hc
    · obtain ⟨n, hn, rfl⟩ := mem_base64Digits hc
      simpa using (base64Digit_spec hn).2.2
    · obtain rfl := (List.mem_replicate.mp hc).2
      decide
  rw [stripPadding_encode, urlsafeB64decode, if_pos hascii]
  exact a2bBase64_digits bytes

/-! ## 4. UTF-8 -/

/-- `text.encode()` -/
def encodeUtf8 (text : String) : List UInt8 := text.toByteArray.data.toList

/-- `data.decode()`; `none` is the `UnicodeDecodeError`. -/
def decodeUtf8? (data : List UInt8) : Option String := String.fromUTF8? ⟨data.toArray⟩

theorem decodeUtf8?_encodeUtf8 (text : String) : decodeUtf8? (encodeUtf8 text) = some text := by
  have hbytes : (⟨(encodeUtf8 text).toArray⟩ : ByteArray) = text.toByteArray := by
    simp [encodeUtf8]
  unfold decodeUtf8?
  rw [hbytes, String.fromUTF8?, dif_pos text.isValidUTF8]
  rfl

end Helpdesk.Python
