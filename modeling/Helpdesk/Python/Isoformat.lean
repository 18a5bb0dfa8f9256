/-
  File:      Helpdesk/Python/Isoformat.lean
  Subject:   Dates and aware datetimes by their fields, and their ISO 8601 text as
             `fromisoformat` reads it.

  The parsers work on the UTF-8 text, which matters where they compare its length: a
  character stands for its first byte, and `'\x80'` for each byte more. The text ends
  with a NUL, so a NUL inside it reads as an end. White space is not stripped.

  * `date?`, `datetime?`: `date.fromisoformat` and `datetime.fromisoformat`, `none` for
    the `ValueError`;
  * `date?_isoformat`, `datetime?_isoformat`: the texts of `isoformat` read back.
-/
import Helpdesk.Python.Datetime
import Helpdesk.Python.Decimal

namespace Helpdesk.Python

/-! ## 1. Dates and times by their fields -/

def isLeap (year : Nat) : Bool := year % 4 = 0 && (year % 100 ≠ 0 || year % 400 = 0)

def daysInMonth (year month : Nat) : Nat :=
  if month = 2 then (if isLeap year then 29 else 28)
  else if month = 4 ∨ month = 6 ∨ month = 9 ∨ month = 11 then 30
  else 31

/-- `date`. -/
structure CalendarDate where
  year : Nat
  month : Nat
  day : Nat
  year_range : 1 ≤ year ∧ year ≤ 9999
  month_range : 1 ≤ month ∧ month ≤ 12
  day_range : 1 ≤ day ∧ day ≤ daysInMonth year month
  deriving DecidableEq

/-- `date(year, month, day)`. -/
def CalendarDate.of? (year month day : Nat) : Option CalendarDate :=
  if hyear : 1 ≤ year ∧ year ≤ 9999 then
    if hmonth : 1 ≤ month ∧ month ≤ 12 then
      if hday : 1 ≤ day ∧ day ≤ daysInMonth year month then
        some ⟨year, month, day, hyear, hmonth, hday⟩
      else none
    else none
  else none

/-- `time`. -/
structure ClockTime where
  hour : Nat
  minute : Nat
  second : Nat
  microsecond : Nat
  hour_range : hour ≤ 23
  minute_range : minute ≤ 59
  second_range : second ≤ 59
  microsecond_range : microsecond ≤ 999999
  deriving DecidableEq

def ClockTime.of? (hour minute second microsecond : Nat) : Option ClockTime :=
  if h : hour ≤ 23 ∧ minute ≤ 59 ∧ second ≤ 59 ∧ microsecond ≤ 999999 then
    some ⟨hour, minute, second, microsecond, h.1, h.2.1, h.2.2.1, h.2.2.2⟩
  else none

/-- A fixed `timezone`: its offset in seconds and microseconds, both without the sign. An
    offset below a second is UTC. -/
structure Offset where
  negative : Bool
  seconds : Nat
  microseconds : Nat
  seconds_range : seconds < 86400
  microseconds_range : microseconds ≤ 999999
  utc : seconds = 0 → negative = false ∧ microseconds = 0
  deriving DecidableEq

def Offset.zero : Offset := ⟨false, 0, 0, by decide, by decide, fun _ => ⟨rfl, rfl⟩⟩

/-- The time zone of `fromisoformat`, from the numbers of the text. -/
def Offset.of? (negative : Bool) (seconds microseconds : Nat) : Option Offset :=
  if hutc : seconds = 0 then some Offset.zero
  else if h : seconds < 86400 ∧ microseconds ≤ 999999 then
    some ⟨negative, seconds, microseconds, h.1, h.2, fun hzero => absurd hzero hutc⟩
  else none

/-- In microseconds. -/
def Offset.delta (offset : Offset) : Int :=
  let size := (offset.seconds * 1000000 + offset.microseconds : Nat)
  if offset.negative then -size else size

/-- An aware `datetime`. -/
structure AwareDatetime where
  date : CalendarDate
  time : ClockTime
  offset : Offset
  deriving DecidableEq

/-! ## 2. Instants -/

/-- The days from 1970-01-01 to a date, by years that begin on March 1st. -/
def daysFromCivil (year month day : Int) : Date :=
  let shifted := if month ≤ 2 then year - 1 else year
  let marchMonth := if month ≤ 2 then month + 9 else month - 3
  let dayOfYear := (153 * marchMonth + 2) / 5 + day - 1
  365 * shifted + shifted / 4 - shifted / 100 + shifted / 400 + dayOfYear - 719468

/-- The date of a number of days; `none` outside the years that Python knows. -/
def CalendarDate.ofDays? (days : Date) : Option CalendarDate :=
  let (year, month, day) := civil days
  if 1 ≤ year then CalendarDate.of? year.toNat month.toNat day.toNat else none

def AwareDatetime.instant (value : AwareDatetime) : Instant :=
  let seconds := (value.time.hour * 3600 + value.time.minute * 60 + value.time.second : Nat)
  daysFromCivil value.date.year value.date.month value.date.day * day + seconds * second +
    value.time.microsecond - value.offset.delta

/-- An instant as an aware UTC datetime; `none` outside the years that Python knows. -/
def AwareDatetime.utc? (at_ : Instant) : Option AwareDatetime :=
  let micros := (at_ % day).toNat
  let seconds := micros / 1000000
  (CalendarDate.ofDays? (dateOf at_)).bind fun date =>
    (ClockTime.of? (seconds / 3600) (seconds / 60 % 60) (seconds % 60) (micros % 1000000)).map
      fun time => ⟨date, time, Offset.zero⟩

/-! ## 3. Writing -/

/-- A number below `10 ^ width` with `width` digits. -/
def fixedDigits : Nat → Nat → List Char
  | 0, _ => []
  | width + 1, n => fixedDigits width (n / 10) ++ [Nat.digitChar (n % 10)]

namespace CalendarDate

def chars (date : CalendarDate) : List Char :=
  fixedDigits 4 date.year ++ '-' :: (fixedDigits 2 date.month ++ '-' :: fixedDigits 2 date.day)

/-- `isoformat()`, and `str`. -/
def isoformat (date : CalendarDate) : String := String.ofList date.chars

end CalendarDate

/-- The digits of microseconds after a point. -/
def fractionChars (microsecond : Nat) : List Char :=
  if microsecond = 0 then [] else '.' :: fixedDigits 6 microsecond

def ClockTime.chars (time : ClockTime) : List Char :=
  fixedDigits 2 time.hour ++ ':' :: (fixedDigits 2 time.minute ++ ':' ::
    (fixedDigits 2 time.second ++ fractionChars time.microsecond))

/-- `format_utcoffset`: seconds and microseconds only where there are any. -/
def Offset.chars (offset : Offset) : List Char :=
  let minutes := offset.seconds / 60
  (if offset.negative then '-' else '+') :: (fixedDigits 2 (minutes / 60) ++ ':' ::
    (fixedDigits 2 (minutes % 60) ++
      if offset.seconds % 60 = 0 ∧ offset.microseconds = 0 then []
      else ':' :: (fixedDigits 2 (offset.seconds % 60) ++ fractionChars offset.microseconds)))

namespace AwareDatetime

def chars (sep : Char) (value : AwareDatetime) : List Char :=
  value.date.chars ++ sep :: (value.time.chars ++ value.offset.chars)

/-- `isoformat()`. -/
def isoformat (value : AwareDatetime) : String := String.ofList (value.chars 'T')

/-- `str(value)`. -/
def text (value : AwareDatetime) : String := String.ofList (value.chars ' ')

end AwareDatetime

/-! ## 4. Reading -/

/-- The UTF-8 text: a character for its first byte, `'\x80'` for each byte more. -/
def utf8Units (text : List Char) : List Char :=
  text.flatMap fun c => c :: List.replicate (c.utf8Size - 1) '\x80'

/-- The character under the pointer. -/
def peek (text : List Char) : Char := text.headD '\x00'

/-- `parse_digits`: a number of exactly so many digits. -/
def digits? (count : Nat) (text : List Char) : Option (Nat × List Char) :=
  let digits := text.take count
  if digits.length = count ∧ digits.all Char.isDigit then
    some (Decimal.digitsValue digits, text.drop count)
  else none

/-- `iso_week1_monday`, as a number of days. -/
def isoWeekOneMonday (year : Nat) : Date :=
  let first := daysFromCivil year 1 1
  let weekday := isoweekday first - 1
  first - weekday + if 3 < weekday then 7 else 0

/-- `iso_to_ymd`. -/
def isoToDate? (year week day : Nat) : Option CalendarDate :=
  let firstWeekday := isoweekday (daysFromCivil year 1 1) - 1
  let longYear := firstWeekday = 3 ∨ firstWeekday = 2 ∧ isLeap year
  if 1 ≤ year ∧ 1 ≤ week ∧ (week ≤ 52 ∨ week = 53 ∧ longYear) ∧ 1 ≤ day ∧ day ≤ 7 then
    CalendarDate.ofDays? (isoWeekOneMonday year + (week - 1) * 7 + day - 1)
  else none

/-- `parse_isoformat_date` of the first `length` bytes; what follows the date among them
    is not looked at. -/
def dateFields? (length : Nat) (text : List Char) : Option CalendarDate := do
  let (year, rest) ← digits? 4 text
  let separated := peek rest = '-'
  let rest := if separated then rest.drop 1 else rest
  if peek rest = 'W' then
    let (week, rest) ← digits? 2 (rest.drop 1)
    if text.length - rest.length < length then
      if separated ∧ peek rest ≠ '-' then none
      else
        let (day, _) ← digits? 1 (if separated then rest.drop 1 else rest)
        isoToDate? year week day
    else isoToDate? year week 1
  else
    let (month, rest) ← digits? 2 rest
    if separated ∧ peek rest ≠ '-' then none
    else
      let (day, _) ← digits? 2 (if separated then rest.drop 1 else rest)
      CalendarDate.of? year month day

/-- `date.fromisoformat(text)`. -/
def date? (text : String) : Option CalendarDate :=
  let bytes := utf8Units text.toList
  if bytes.length = 7 ∨ bytes.length = 8 ∨ bytes.length = 10 then
    dateFields? bytes.length bytes
  else none

/-- The numbers of a clock, and whether the text goes on after them. -/
structure ClockFields where
  hour : Nat
  minute : Nat
  second : Nat
  microsecond : Nat
  more : Bool
  deriving DecidableEq, Repr

/-- The end of `parse_hh_mm_ss_ff`: up to six digits, and digits that are dropped. -/
def fraction? (hour minute second : Nat) (text : List Char) : Option ClockFields := do
  let count := min 6 text.length
  let (value, rest) ← digits? count text
  return ⟨hour, minute, second, value * 10 ^ (6 - count), peek (rest.dropWhile Char.isDigit) ≠ '\x00'⟩

/-- How the loop of `parse_hh_mm_ss_ff` goes on after a number. -/
inductive AfterNumber where
  | ends (more : Bool)
  | number (rest : List Char)
  | fraction (rest : List Char)
  | malformed

/-- The character after a number; `separated` is whether a colon followed the hour. -/
def afterNumber (separated : Bool) : List Char → AfterNumber
  | [] => .ends false
  | [c] => .ends (c ≠ '\x00')
  | c :: rest =>
      if separated ∧ c = ':' then .number rest
      else if c = '.' ∨ c = ',' then .fraction rest
      else if separated then .malformed
      else .number (c :: rest)

/-- `parse_hh_mm_ss_ff`: `HH[:?MM[:?SS[.ff]]]`. -/
def clock? (text : List Char) : Option ClockFields := do
  let (hour, rest) ← digits? 2 text
  let separated : Bool := peek rest = ':'
  match afterNumber separated rest with
  | .ends more => some ⟨hour, 0, 0, 0, more⟩
  | .malformed => none
  | .fraction rest => fraction? hour 0 0 rest
  | .number rest =>
      let (minute, rest) ← digits? 2 rest
      match afterNumber separated rest with
      | .ends more => some ⟨hour, minute, 0, 0, more⟩
      | .malformed => none
      | .fraction rest => fraction? hour minute 0 rest
      | .number rest =>
          let (second, rest) ← digits? 2 rest
          match afterNumber separated rest with
          | .ends more => some ⟨hour, minute, second, 0, more⟩
          | .malformed => none
          | .fraction rest | .number rest => fraction? hour minute second rest

def isZone (c : Char) : Bool := c = '+' || c = '-' || c = 'Z'

/-- `parse_isoformat_time`: the clock, and the offset where there is one. -/
def time? (text : List Char) : Option (ClockFields × Option Offset) := do
  let clock ← clock? (text.takeWhile fun c => !isZone c)
  match text.dropWhile fun c => !isZone c with
  | [] => if clock.more then none else some (clock, none)
  | 'Z' :: after => if peek after = '\x00' then some (clock, some Offset.zero) else none
  | sign :: after =>
      let zone ← clock? after
      if zone.more then none
      else
        let seconds := zone.hour * 3600 + zone.minute * 60 + zone.second
        let offset ← Offset.of? (sign = '-') seconds zone.microsecond
        some (clock, some offset)

/-- `_find_isoformat_datetime_separator`. -/
def separator? (text : List Char) : Option Nat :=
  if text.length < 7 then none
  else if text.length = 7 then some 7
  else if text[4]? = some '-' then
    if text[5]? = some 'W' then
      if text[8]? = some '-' then
        if text.length = 9 then none
        else if (text[10]?.map Char.isDigit).getD false then some 8
        else some 10
      else some 8
    else some 10
  else if text[4]? = some 'W' then
    let stop := 7 + ((text.drop 7).takeWhile Char.isDigit).length
    if stop < 9 then some stop
    else if stop % 2 = 0 then some 7
    else some 8
  else some 8

/-- What `datetime.fromisoformat` returns; a naive datetime has no offset. -/
structure ParsedDatetime where
  date : CalendarDate
  time : ClockTime
  offset : Option Offset
  deriving DecidableEq

/-- `datetime.fromisoformat(text)`; any one character may stand before the time. -/
def datetime? (text : String) : Option ParsedDatetime := do
  let bytes := utf8Units text.toList
  let place ← separator? bytes
  let date ← dateFields? place bytes
  if bytes.length ≤ place then
    let midnight ← ClockTime.of? 0 0 0 0
    return ⟨date, midnight, none⟩
  else
    let (clock, offset) ← time? (bytes.drop (place + (peek (bytes.drop place)).utf8Size))
    let time ← ClockTime.of? clock.hour clock.minute clock.second clock.microsecond
    return ⟨date, time, offset⟩

/-- The instant; a naive datetime is one of the server's, whose clock is UTC. -/
def ParsedDatetime.instant (value : ParsedDatetime) : Instant :=
  (AwareDatetime.mk value.date value.time (value.offset.getD .zero)).instant

/-! ## 5. Digits read back -/

theorem fixedDigits_length (width n : Nat) : (fixedDigits width n).length = width := by
  induction width generalizing n with
  | zero => rfl
  | succ width ih => rw [fixedDigits, List.length_append, ih, List.length_singleton]

theorem isDigit_fixedDigits {width n : Nat} {c : Char} (h : c ∈ fixedDigits width n) :
    c.isDigit = true := by
  induction width generalizing n with
  | zero => cases h
  | succ width ih =>
      rw [fixedDigits] at h
      rcases List.mem_append.mp h with hfront | hlast
      · exact ih hfront
      · rw [List.mem_singleton.mp hlast]
        have hall : ∀ d < 10, (Nat.digitChar d).isDigit = true := by decide
        exact hall _ (Nat.mod_lt _ (by decide))

theorem digitsValue_fixedDigits {width n : Nat} (h : n < 10 ^ width) :
    Decimal.digitsValue (fixedDigits width n) = n := by
  induction width generalizing n with
  | zero => simpa [fixedDigits, Decimal.digitsValue] using (Nat.lt_one_iff.mp h).symm
  | succ width ih =>
      have hall : ∀ d < 10, (Nat.digitChar d).toNat - '0'.toNat = d := by decide
      have hlast := hall (n % 10) (Nat.mod_lt n (by decide))
      have hfront := ih (n := n / 10) (by rw [Nat.pow_succ] at h; omega)
      rw [Decimal.digitsValue] at hfront ⊢
      rw [fixedDigits, Nat.ofDigitChars_append, hfront, Nat.ofDigitChars_cons, hlast]
      exact Nat.div_add_mod n 10

theorem digits?_fixedDigits {width n : Nat} (h : n < 10 ^ width) (rest : List Char) :
    digits? width (fixedDigits width n ++ rest) = some (n, rest) := by
  have htake : (fixedDigits width n ++ rest).take width = fixedDigits width n :=
    List.take_left' (fixedDigits_length width n)
  have hdrop : (fixedDigits width n ++ rest).drop width = rest :=
    List.drop_left' (fixedDigits_length width n)
  have hall : (fixedDigits width n).all Char.isDigit = true :=
    List.all_eq_true.mpr fun _ => isDigit_fixedDigits
  rw [digits?, htake, hdrop, if_pos ⟨fixedDigits_length width n, hall⟩, digitsValue_fixedDigits h]

/-- Digits at the end of the text. -/
theorem digits?_all {width n : Nat} (h : n < 10 ^ width) :
    digits? width (fixedDigits width n) = some (n, []) := by
  have hread := digits?_fixedDigits h []
  rwa [List.append_nil] at hread

/-! ## 6. Dates read back -/

/-- A digit, as far as the parsers tell it from other characters. -/
theorem ne_of_isDigit {c d : Char} (hc : c.isDigit = true) (hd : d.isDigit = false) : c ≠ d := by
  rintro rfl
  rw [hc] at hd
  cases hd

theorem fixedDigits_two (n : Nat) :
    fixedDigits 2 n = [Nat.digitChar (n / 10 % 10), Nat.digitChar (n % 10)] := rfl

theorem fixedDigits_four (n : Nat) :
    fixedDigits 4 n = [Nat.digitChar (n / 10 / 10 / 10 % 10), Nat.digitChar (n / 10 / 10 % 10),
      Nat.digitChar (n / 10 % 10), Nat.digitChar (n % 10)] := rfl

theorem isDigit_digit (n : Nat) : (Nat.digitChar (n % 10)).isDigit = true :=
  isDigit_fixedDigits (by simp [fixedDigits] : Nat.digitChar (n % 10) ∈ fixedDigits 1 n)

namespace CalendarDate

theorem of?_self (date : CalendarDate) : of? date.year date.month date.day = some date := by
  simp [of?, date.year_range, date.month_range, date.day_range]

theorem day_lt (date : CalendarDate) : date.day < 100 := by
  have hmonth : ∀ year month, daysInMonth year month ≤ 31 := by
    intro year month
    unfold daysInMonth
    split
    · split <;> decide
    · split <;> decide
  have hday := date.day_range
  have hle := hmonth date.year date.month
  omega

/-- What follows the date is not looked at. -/
theorem dateFields?_chars (date : CalendarDate) (rest : List Char) :
    dateFields? 10 (date.chars ++ rest) = some date := by
  have hyear := date.year_range
  have hmonth := date.month_range
  have hsep : ∀ text, peek ('-' :: text) = '-' := fun _ => rfl
  have hweek : ∀ text, peek (fixedDigits 2 date.month ++ text) ≠ 'W' :=
    fun text => ne_of_isDigit (isDigit_digit _) (by decide)
  simp only [dateFields?, chars, List.append_assoc, List.cons_append, Option.bind_eq_bind,
    digits?_fixedDigits (show date.year < 10 ^ 4 by omega), Option.bind_some, hsep, if_true,
    List.drop_succ_cons, List.drop_zero, hweek, if_false,
    digits?_fixedDigits (show date.month < 10 ^ 2 by omega), ne_eq, not_true_eq_false, and_false,
    digits?_fixedDigits (show date.day < 10 ^ 2 from date.day_lt), of?_self]

theorem chars_length (date : CalendarDate) : date.chars.length = 10 := by
  simp [chars, fixedDigits_length]

end CalendarDate

/-- The characters of the texts, each of one byte. -/
def Iso (c : Char) : Prop := c.isDigit = true ∨ c ∈ ['-', ':', '.', '+', 'T', ' ']

theorem Iso.utf8Size {c : Char} (h : Iso c) : c.utf8Size = 1 := by
  rcases h with hdigit | hmem
  · obtain ⟨d, hd, rfl⟩ := Decimal.digitChar_of_isDigit hdigit
    have hall : ∀ d < 10, (Nat.digitChar d).utf8Size = 1 := by decide
    exact hall d hd
  · have hall : ∀ c ∈ ['-', ':', '.', '+', 'T', ' '], Char.utf8Size c = 1 := by
      simp only [List.forall_mem_cons, List.not_mem_nil, false_imp_iff, implies_true, and_true]
      decide
    exact hall c hmem

theorem utf8Units_iso {text : List Char} (h : ∀ c ∈ text, Iso c) : utf8Units text = text := by
  induction text with
  | nil => rfl
  | cons c text ih =>
      have hrest := ih fun d hd => h d (List.mem_cons_of_mem c hd)
      unfold utf8Units at hrest ⊢
      rw [List.flatMap_cons, hrest, (h c List.mem_cons_self).utf8Size]
      rfl

theorem iso_fixedDigits {width n : Nat} {c : Char} (h : c ∈ fixedDigits width n) : Iso c :=
  Or.inl (isDigit_fixedDigits h)

theorem iso_fractionChars {n : Nat} {c : Char} (h : c ∈ fractionChars n) : Iso c := by
  unfold fractionChars at h
  split at h
  · cases h
  · rcases List.mem_cons.mp h with rfl | hdigit
    · exact Or.inr (by decide)
    · exact iso_fixedDigits hdigit

theorem CalendarDate.iso_chars (date : CalendarDate) {c : Char} (h : c ∈ date.chars) : Iso c := by
  simp only [chars, List.mem_append, List.mem_cons] at h
  rcases h with h | rfl | h | rfl | h
  · exact iso_fixedDigits h
  · exact Or.inr (by decide)
  · exact iso_fixedDigits h
  · exact Or.inr (by decide)
  · exact iso_fixedDigits h

/-- **The text of a date reads back.** -/
theorem date?_isoformat (date : CalendarDate) : date? date.isoformat = some date := by
  have hunits : utf8Units date.chars = date.chars := utf8Units_iso fun _ => date.iso_chars
  have hread := date.dateFields?_chars []
  rw [List.append_nil] at hread
  simp [date?, CalendarDate.isoformat, hunits, date.chars_length, hread]

/-! ## 7. Clocks read back -/

theorem peek_fixedDigits {width n : Nat} (text : List Char) {c : Char} (hc : c.isDigit = false) :
    peek (fixedDigits (width + 1) n ++ text) ≠ c := by
  have hne : fixedDigits (width + 1) n ≠ [] := by simp [fixedDigits]
  obtain ⟨d, ds, hds⟩ := List.exists_cons_of_ne_nil hne
  rw [hds]
  exact ne_of_isDigit (isDigit_fixedDigits (by rw [hds]; exact List.mem_cons_self)) hc

/-- After a number the text ends. -/
theorem afterNumber_nil (separated : Bool) : afterNumber separated [] = .ends false := rfl

/-- After a number comes a colon and another one. -/
theorem afterNumber_colon {width n : Nat} (text : List Char) :
    afterNumber true (':' :: (fixedDigits (width + 1) n ++ text)) =
      .number (fixedDigits (width + 1) n ++ text) := by
  have hne : fixedDigits (width + 1) n ++ text ≠ [] := by simp [fixedDigits]
  obtain ⟨d, ds, hds⟩ := List.exists_cons_of_ne_nil hne
  rw [hds]
  rfl

/-- After a number comes a point and digits. -/
theorem afterNumber_point {width n : Nat} (text : List Char) :
    afterNumber true ('.' :: (fixedDigits (width + 1) n ++ text)) =
      .fraction (fixedDigits (width + 1) n ++ text) := by
  have hne : fixedDigits (width + 1) n ++ text ≠ [] := by simp [fixedDigits]
  obtain ⟨d, ds, hds⟩ := List.exists_cons_of_ne_nil hne
  rw [hds]
  rfl

/-- `HH:MM`. -/
theorem clock?_minutes {hour minute : Nat} (hhour : hour < 100) (hminute : minute < 100) :
    clock? (fixedDigits 2 hour ++ ':' :: fixedDigits 2 minute) =
      some ⟨hour, minute, 0, 0, false⟩ := by
  have hcolon := @afterNumber_colon 1 minute []
  rw [List.append_nil] at hcolon
  have hpeek : peek (':' :: fixedDigits 2 minute) = ':' := rfl
  rw [clock?, digits?_fixedDigits (show hour < 10 ^ 2 from hhour)]
  simp only [Option.bind_eq_bind, Option.bind_some, hpeek, decide_true, hcolon,
    digits?_all (show minute < 10 ^ 2 from hminute), afterNumber_nil]

/-- `HH:MM:SS`, perhaps with a fraction. -/
theorem clock?_seconds {hour minute second microsecond : Nat} (hhour : hour < 100)
    (hminute : minute < 100) (hsecond : second < 100) (hmicrosecond : microsecond ≤ 999999) :
    clock? (fixedDigits 2 hour ++ ':' :: (fixedDigits 2 minute ++ ':' ::
      (fixedDigits 2 second ++ fractionChars microsecond))) =
      some ⟨hour, minute, second, microsecond, false⟩ := by
  have hpeek : ∀ text, peek (':' :: text) = ':' := fun _ => rfl
  rw [clock?, digits?_fixedDigits (show hour < 10 ^ 2 from hhour)]
  simp only [Option.bind_eq_bind, Option.bind_some, hpeek, decide_true, afterNumber_colon,
    digits?_fixedDigits (show minute < 10 ^ 2 from hminute),
    digits?_fixedDigits (show second < 10 ^ 2 from hsecond)]
  by_cases hzero : microsecond = 0
  · simp [fractionChars, hzero, afterNumber_nil]
  · have hpoint := @afterNumber_point 5 microsecond []
    rw [List.append_nil] at hpoint
    simp only [fractionChars, hzero, if_false, hpoint, fraction?, fixedDigits_length, Nat.min_self,
      digits?_all (show microsecond < 10 ^ 6 by omega), Option.bind_eq_bind, Option.bind_some]
    simp [peek]

/-! ## 8. Datetimes read back -/

theorem ClockTime.of?_self (time : ClockTime) :
    of? time.hour time.minute time.second time.microsecond = some time := by
  simp [of?, time.hour_range, time.minute_range, time.second_range, time.microsecond_range]

theorem ClockTime.clock?_chars (time : ClockTime) :
    clock? time.chars =
      some ⟨time.hour, time.minute, time.second, time.microsecond, false⟩ := by
  have hhour := time.hour_range
  have hminute := time.minute_range
  have hsecond := time.second_range
  exact clock?_seconds (by omega) (by omega) (by omega) time.microsecond_range

theorem Offset.of?_self (offset : Offset) :
    of? offset.negative offset.seconds offset.microseconds = some offset := by
  obtain ⟨negative, seconds, microseconds, hseconds, hmicroseconds, hutc⟩ := offset
  by_cases hzero : seconds = 0
  · obtain ⟨hnegative, hmicro⟩ := hutc hzero
    subst hzero hnegative hmicro
    rfl
  · simp [of?, hzero, hseconds, hmicroseconds]

/-- The sign of an offset, and the clock after it. -/
theorem Offset.chars_cons (offset : Offset) : ∃ clock, offset.chars =
    (if offset.negative then '-' else '+') :: clock ∧
    clock? clock = some ⟨offset.seconds / 60 / 60, offset.seconds / 60 % 60, offset.seconds % 60,
      offset.microseconds, false⟩ := by
  have hrange := offset.seconds_range
  refine ⟨_, rfl, ?_⟩
  split
  · next h =>
      rw [List.append_nil, h.1, h.2]
      exact clock?_minutes (by omega) (by omega)
  · exact clock?_seconds (by omega) (by omega) (by omega) offset.microseconds_range

theorem isZone_of_mem {time : ClockTime} {c : Char} (h : c ∈ time.chars) : isZone c = false := by
  have hdigit : ∀ {width n}, c ∈ fixedDigits width n → isZone c = false := by
    intro width n hc
    obtain ⟨d, hd, rfl⟩ := Decimal.digitChar_of_isDigit (isDigit_fixedDigits hc)
    have hall : ∀ d < 10, isZone (Nat.digitChar d) = false := by decide
    exact hall d hd
  simp only [ClockTime.chars, List.mem_append, List.mem_cons] at h
  rcases h with h | rfl | h | rfl | h | h
  · exact hdigit h
  · rfl
  · exact hdigit h
  · rfl
  · exact hdigit h
  · unfold fractionChars at h
    split at h
    · cases h
    · rcases List.mem_cons.mp h with rfl | hc
      · rfl
      · exact hdigit hc

theorem time?_chars (time : ClockTime) (offset : Offset) :
    time? (time.chars ++ offset.chars) =
      some (⟨time.hour, time.minute, time.second, time.microsecond, false⟩, some offset) := by
  obtain ⟨clock, hchars, hclock⟩ := offset.chars_cons
  have hsign : isZone (if offset.negative then '-' else '+') = true := by
    cases offset.negative <;> rfl
  have htake : (time.chars ++ offset.chars).takeWhile (fun c => !isZone c) = time.chars := by
    rw [List.takeWhile_append_of_pos fun c hc => by simp [isZone_of_mem hc], hchars]
    simp [hsign]
  have hdrop : (time.chars ++ offset.chars).dropWhile (fun c => !isZone c) = offset.chars := by
    rw [List.dropWhile_append_of_pos fun c hc => by simp [isZone_of_mem hc], hchars]
    simp [hsign]
  have hseconds : offset.seconds / 60 / 60 * 3600 + offset.seconds / 60 % 60 * 60 +
      offset.seconds % 60 = offset.seconds := by omega
  have hself := offset.of?_self
  rw [time?, htake, hdrop, time.clock?_chars, hchars]
  cases hnegative : offset.negative <;> rw [hnegative] at hself <;>
    simp [hclock, hseconds, hself]

theorem AwareDatetime.iso_chars (value : AwareDatetime) {sep c : Char} (hsep : Iso sep)
    (h : c ∈ value.chars sep) : Iso c := by
  have hclock : c ∈ value.time.chars → Iso c := by
    intro h
    simp only [ClockTime.chars, List.mem_append, List.mem_cons] at h
    rcases h with h | rfl | h | rfl | h | h
    · exact iso_fixedDigits h
    · exact Or.inr (by decide)
    · exact iso_fixedDigits h
    · exact Or.inr (by decide)
    · exact iso_fixedDigits h
    · exact iso_fractionChars h
  have hoffset : c ∈ value.offset.chars → Iso c := by
    intro h
    simp only [Offset.chars, List.mem_append, List.mem_cons] at h
    rcases h with rfl | h | rfl | h | h
    · cases value.offset.negative
      · exact Or.inr (by decide)
      · exact Or.inr (by decide)
    · exact iso_fixedDigits h
    · exact Or.inr (by decide)
    · exact iso_fixedDigits h
    · split at h
      · cases h
      · simp only [List.mem_append, List.mem_cons] at h
        rcases h with rfl | h | h
        · exact Or.inr (by decide)
        · exact iso_fixedDigits h
        · exact iso_fractionChars h
  simp only [chars, List.mem_append, List.mem_cons] at h
  rcases h with h | rfl | h | h
  · exact value.date.iso_chars h
  · exact hsep
  · exact hclock h
  · exact hoffset h

/-- The date of a text ends after ten characters. -/
theorem separator?_chars (value : AwareDatetime) (sep : Char) :
    separator? (value.chars sep) = some 10 := by
  have hlength : 10 < (value.chars sep).length := by
    rw [AwareDatetime.chars, List.length_append, value.date.chars_length, List.length_cons]
    omega
  have hfour : (value.chars sep)[4]? = some '-' := rfl
  have hfive : (value.chars sep)[5]? = some (Nat.digitChar (value.date.month / 10 % 10)) := rfl
  have hdigit : Nat.digitChar (value.date.month / 10 % 10) ≠ 'W' :=
    ne_of_isDigit (isDigit_digit _) (by decide)
  rw [separator?, if_neg (by omega), if_neg (by omega), if_pos hfour, hfive,
    if_neg (by simp [hdigit])]

/-- **The text of a datetime reads back.** -/
theorem datetime?_isoformat (value : AwareDatetime) :
    datetime? value.isoformat = some ⟨value.date, value.time, some value.offset⟩ := by
  have hunits : utf8Units (value.chars 'T') = value.chars 'T' :=
    utf8Units_iso fun c hc => value.iso_chars (Or.inr (by decide)) hc
  have hdate : dateFields? 10 (value.chars 'T') = some value.date :=
    value.date.dateFields?_chars _
  have hafter : (value.chars 'T').drop 10 = 'T' :: (value.time.chars ++ value.offset.chars) :=
    List.drop_left' value.date.chars_length
  have htime : (value.chars 'T').drop 11 = value.time.chars ++ value.offset.chars := by
    have hsplit : (value.chars 'T').drop 11 = ((value.chars 'T').drop 10).drop 1 := by
      rw [List.drop_drop]
    rw [hsplit, hafter]
    rfl
  have hlong : ¬ (value.chars 'T').length ≤ 10 := by
    intro hle
    rw [List.drop_eq_nil_of_le hle] at hafter
    cases hafter
  have hplace : 10 + (peek ((value.chars 'T').drop 10)).utf8Size = 11 := by
    rw [hafter]
    rfl
  rw [datetime?, AwareDatetime.isoformat, String.toList_ofList]
  simp only [hunits, separator?_chars, Option.bind_eq_bind, Option.bind_some, hdate, hlong,
    if_false, hplace, htime, time?_chars, ClockTime.of?_self]
  rfl

end Helpdesk.Python
