/-
  File:      Helpdesk/AnalystCopilot/Redaction.lean
  Subject:   The texts of the analyst copilot without contact data
             (apps/api/app/analyst_copilot/service.py).

  `_safe_text` puts the words of a text a space apart, replaces what looks like an e-mail
  address and then what looks like a phone number, and cuts the text off at its limit. What
  is put in is in brackets, so it brings no new address and no new number. The cut may: a
  number in front of a letter is none, and it is one when the letter is cut off.

  * `email_reads`, `phone_reads`: what the two patterns have in common with `Regex.Separates`;
  * `redact_contains`: until the cut no contact data is left;
  * `redaction_law`: after the cut none is, and the text is stable, exactly where the cut goes
    neither through such a word nor behind a space.
-/
import Helpdesk.Lib.Regex
import Helpdesk.Python.Words

namespace Helpdesk.AnalystCopilot

open Helpdesk.Python Helpdesk.Scanning

/-! ## 1. `_safe_text` -/

/-- `\d`. -/
def isDecimal (c : Char) : Bool := (decimalDigit? c).isSome

/-- `[A-Z]` without regard to case: four letters beyond ASCII fold to it. -/
def isLetter (c : Char) : Bool :=
  ('A' ≤ c && c ≤ 'Z') || ('a' ≤ c && c ≤ 'z') ||
    ['\u0130', '\u0131', '\u017f', '\u212a'].contains c

def isAsciiDigit (c : Char) : Bool := '0' ≤ c && c ≤ '9'

/-- `[A-Z0-9._%+-]` -/
def isLocalChar (c : Char) : Bool :=
  isLetter c || isAsciiDigit c || ['.', '_', '%', '+', '-'].contains c

/-- `[A-Z0-9.-]` -/
def isDomainChar (c : Char) : Bool := isLetter c || isAsciiDigit c || ['.', '-'].contains c

/-- `[\d ()-]` -/
def isPhoneChar (c : Char) : Bool := isDecimal c || [' ', '(', ')', '-'].contains c

/-- `[A-Z0-9._%+-]+@[A-Z0-9.-]+\.[A-Z]{2,}` -/
def address : Regex Char :=
  .seq (.many isLocalChar 1) (.seq (.one (· = '@')) (.seq (.many isDomainChar 1)
    (.seq (.one (· = '.')) (.many isLetter 2))))

/-- `\+?\d[\d ()-]{7,}\d` -/
def number : Regex Char :=
  .seq (.optional (.one (· = '+'))) (.seq (.one isDecimal) (.seq (.many isPhoneChar 7) (.one isDecimal)))

/-- What `\w` matches, beyond ASCII by the Unicode tables. -/
structure Documented (isWord : Char → Bool) : Prop where
  ascii : ∀ c, c.toNat < 128 → isWord c = (c.isAlphanum || c = '_')
  digit : ∀ c, isDecimal c = true → isWord c = true
  letter : ∀ c ∈ ['\u0130', '\u0131', '\u017f', '\u212a'], isWord c = true

section Patterns

variable (isWord : Char → Bool)

/-- `\b`. -/
def boundary (prev next : Option Char) : Bool := prev.any isWord != next.any isWord

/-- `_EMAIL`. -/
def email : Regex Char :=
  .seq (.check (boundary isWord)) (.seq address (.check (boundary isWord)))

/-- `_PHONE`. -/
def phone : Regex Char :=
  .seq (.check fun prev _ => !prev.any isWord) (.seq number (.check fun _ next => !next.any isWord))

def redactedEmail : List Char := "[redacted email]".toList

def redactedPhone : List Char := "[redacted phone]".toList

/-- The two substitutions. -/
def redact (text : List Char) : List Char :=
  (phone isWord).sub redactedPhone ((email isWord).sub redactedEmail text)

/-- How much of a text `text[:limit]` keeps. -/
def kept (limit : Int) (length : Nat) : Nat :=
  min length (if 0 ≤ limit then limit.toNat else length - limit.natAbs)

/-- `_safe_text`. -/
def safeText (value : String) (limit : Int) : String :=
  let normalized := redact isWord (collapse value.toList)
  String.ofList (normalized.take (kept limit normalized.length))

end Patterns

/-! ## 2. The two patterns -/

section Reading

variable {isWord : Char → Bool} {prev next : Option Char} {part : List Char}

theorem isWord_of_isLetter (hdoc : Documented isWord) {c : Char} (h : isLetter c = true) :
    isWord c = true := by
  simp only [isLetter, Bool.or_eq_true, Bool.and_eq_true, decide_eq_true_eq, Char.le_def,
    UInt32.le_iff_toNat_le] at h
  rcases h with (⟨hlow, hhigh⟩ | ⟨hlow, hhigh⟩) | hother
  · have hupper : c.isUpper = true := by
      delta Char.isUpper
      simpa [UInt32.le_iff_toNat_le] using And.intro hlow hhigh
    have hascii : c.toNat < 128 := Nat.lt_of_le_of_lt hhigh (by decide)
    rw [hdoc.ascii c hascii, Char.isAlphanum]
    delta Char.isAlpha
    rw [hupper]
    rfl
  · have hlower : c.isLower = true := by
      delta Char.isLower
      simpa [UInt32.le_iff_toNat_le] using And.intro hlow hhigh
    have hascii : c.toNat < 128 := Nat.lt_of_le_of_lt hhigh (by decide)
    rw [hdoc.ascii c hascii, Char.isAlphanum]
    delta Char.isAlpha
    rw [hlower]
    simp
  · exact hdoc.letter c (by simpa using hother)

theorem address_reads (h : address.Reads prev part next) :
    '@' ∈ part ∧ ∃ body z, part = body ++ [z] ∧ isLetter z = true := by
  obtain ⟨name, _, rfl, _, _, _, rfl, ⟨_, rfl, hat⟩, domain, _, rfl, _, _, top, rfl, ⟨dot, rfl, _⟩,
    hlength, htop⟩ := h
  obtain rfl := of_decide_eq_true hat
  refine ⟨by simp, ?_⟩
  obtain ⟨body, z, rfl⟩ := (List.eq_nil_or_concat' top).resolve_left fun hnil => by
    rw [hnil] at hlength
    cases hlength
  refine ⟨name ++ ('@' :: (domain ++ dot :: body)), z, by simp, ?_⟩
  exact htop z (List.mem_append_right _ List.mem_cons_self)

/-- **What `_EMAIL` matches** has an at sign and ends in a letter, which the word ends with. -/
theorem email_reads (hdoc : Documented isWord) : (email isWord).Reads prev part next ↔
    boundary isWord prev part.head? = true ∧ address.Reads none part none ∧
      next.any isWord = false := by
  rw [email, Regex.reads_between rfl]
  have hiff : address.Reads none part none →
      ((boundary isWord prev (part.head?.or next) = true ↔ boundary isWord prev part.head? = true) ∧
        (boundary isWord (last prev part) next = true ↔ next.any isWord = false)) := by
    intro h
    obtain ⟨_, body, z, rfl, hz⟩ := address_reads h
    constructor
    · cases body <;> exact Iff.rfl
    · rw [last_append, last_singleton, boundary, Option.any_some, isWord_of_isLetter hdoc hz]
      simp
  constructor
  · intro ⟨hbefore, hread, hafter⟩
    exact ⟨(hiff hread).1.mp hbefore, hread, (hiff hread).2.mp hafter⟩
  · intro ⟨hbefore, hread, hafter⟩
    exact ⟨(hiff hread).1.mpr hbefore, hread, (hiff hread).2.mpr hafter⟩

/-- A number begins with its sign or its first digit, and ends in a digit. -/
theorem number_reads (h : number.Reads prev part next) :
    (∃ body z, part = body ++ [z] ∧ isDecimal z = true) ∧
      ∃ a rest, part = a :: rest ∧ (isDecimal a = true ∨ a = '+' ∧ number.Reads none rest none) := by
  obtain ⟨sign, _, rfl, hsign, first, tail, rfl, hfirst, hrest⟩ := h
  have htail : (Regex.seq (.one isDecimal) (.seq (.many isPhoneChar 7) (.one isDecimal))).Reads
      none (first ++ tail) none := Regex.reads_elsewhere rfl ⟨first, tail, rfl, hfirst, hrest⟩
  obtain ⟨digit, rfl, hdigit⟩ := hfirst
  obtain ⟨middle, _, rfl, _, final, rfl, hfinal⟩ := hrest
  refine ⟨⟨sign ++ (digit :: middle), final, by simp, hfinal⟩, ?_⟩
  rcases hsign with ⟨plus, rfl, hplus⟩ | rfl
  · obtain rfl := of_decide_eq_true hplus
    exact ⟨'+', _, rfl, .inr ⟨rfl, [], _, rfl, .inr rfl, Regex.reads_elsewhere rfl htail⟩⟩
  · exact ⟨digit, _, rfl, .inl hdigit⟩

/-- **What `_PHONE` matches** is a number without a word around it. -/
theorem phone_reads : (phone isWord).Reads prev part next ↔
    prev.any isWord = false ∧ number.Reads none part none ∧ next.any isWord = false := by
  rw [phone, Regex.reads_between rfl, Bool.not_eq_true', Bool.not_eq_true']

theorem email_solid : (email isWord).Solid := by
  intro prev next h
  have hread : address.Reads none [] none := ((Regex.reads_between rfl).mp h).2.1
  exact absurd (address_reads hread).1 List.not_mem_nil

theorem phone_solid : (phone isWord).Solid := by
  intro prev next h
  obtain ⟨a, rest, hnil, _⟩ := (number_reads (phone_reads.mp h).2.1).2
  cases hnil

theorem isWord_brackets (hdoc : Documented isWord) :
    isWord '[' = false ∧ isWord ']' = false ∧ isWord ' ' = false ∧ isWord '+' = false :=
  ⟨hdoc.ascii '[' (by decide), hdoc.ascii ']' (by decide), hdoc.ascii ' ' (by decide),
    hdoc.ascii '+' (by decide)⟩

/-- No address goes over a bracket or is inside what is put in. -/
theorem email_outside {w : List Char} (hat : '@' ∉ w) (h : (email isWord).Reads prev part next) :
    '[' ∉ part ∧ ']' ∉ part ∧ ∃ a ∈ part, a ∉ w := by
  have hall := Regex.alphabet_of_reads h
  refine ⟨fun hmem => Bool.noConfusion (hall _ hmem), fun hmem => Bool.noConfusion (hall _ hmem),
    '@', ?_, hat⟩
  exact (address_reads ((Regex.reads_between rfl).mp h).2.1).1

theorem phone_outside {w : List Char} (hdigit : ∀ a ∈ w, isDecimal a = false)
    (h : (phone isWord).Reads prev part next) : '[' ∉ part ∧ ']' ∉ part ∧ ∃ a ∈ part, a ∉ w := by
  have hall := Regex.alphabet_of_reads h
  refine ⟨fun hmem => Bool.noConfusion (hall _ hmem), fun hmem => Bool.noConfusion (hall _ hmem), ?_⟩
  obtain ⟨body, z, rfl, hz⟩ := (number_reads (phone_reads.mp h).2.1).1
  refine ⟨z, List.mem_append_right _ List.mem_cons_self, fun hmem => ?_⟩
  rw [hdigit z hmem] at hz
  cases hz

/-- An address behind a bracket begins with a letter or a digit. -/
theorem email_after_bracket (hdoc : Documented isWord) {a : Char} (ha : isWord a = false) :
    ¬ (email isWord).Reads (some ']') (a :: part) next := by
  intro h
  have hbefore := ((email_reads hdoc).mp h).1
  rw [boundary, List.head?_cons, Option.any_some, Option.any_some, ha,
    (isWord_brackets hdoc).2.1] at hbefore
  cases hbefore

theorem email_separates (hdoc : Documented isWord) :
    (email isWord).Separates (email isWord) redactedEmail where
  filled := by decide
  first a ha prev part next h := by
    obtain rfl := Option.some.inj (ha : some '[' = some a)
    exact (email_outside (w := redactedEmail) (by decide) h).1
  final a ha prev part next h := by
    obtain rfl := Option.some.inj (ha : some ']' = some a)
    exact (email_outside (w := redactedEmail) (by decide) h).2.1
  outside prev part next h := (email_outside (by decide) h).2.2
  after prev hit a part next hhit h := by
    have hnext := ((email_reads hdoc).mp hhit).2.2
    exact absurd h (email_after_bracket hdoc hnext)
  before prev part z a hit next hhit h := by
    obtain ⟨hbefore, hread, _⟩ := (email_reads hdoc).mp h
    refine (email_reads hdoc).mpr ⟨hbefore, hread, ?_⟩
    -- the hit begins at the end of the word
    obtain ⟨_, body, z', hpart, hz⟩ := address_reads hread
    obtain rfl := List.head_eq_of_cons_eq (List.append_inj' hpart rfl).2
    have hword := ((email_reads hdoc).mp hhit).1
    rw [boundary, List.head?_cons, Option.any_some, Option.any_some,
      isWord_of_isLetter hdoc hz] at hword
    simpa using hword

theorem phone_email_separates (hdoc : Documented isWord) :
    (phone isWord).Separates (email isWord) redactedPhone where
  filled := by decide
  first a ha prev part next h := by
    obtain rfl := Option.some.inj (ha : some '[' = some a)
    exact (email_outside (w := redactedPhone) (by decide) h).1
  final a ha prev part next h := by
    obtain rfl := Option.some.inj (ha : some ']' = some a)
    exact (email_outside (w := redactedPhone) (by decide) h).2.1
  outside prev part next h := (email_outside (by decide) h).2.2
  after prev hit a part next hhit h :=
    absurd h (email_after_bracket hdoc (phone_reads.mp hhit).2.2)
  before prev part z a hit next hhit h := by
    obtain ⟨_, body, z', hpart, hz⟩ := address_reads ((email_reads hdoc).mp h).2.1
    obtain rfl := List.head_eq_of_cons_eq (List.append_inj' hpart rfl).2
    have hword : isWord z = false := (phone_reads.mp hhit).1
    rw [isWord_of_isLetter hdoc hz] at hword
    cases hword

theorem redactedPhone_digits : ∀ a ∈ redactedPhone, isDecimal a = false :=
  none_of_all (by decide)

theorem phone_separates (hdoc : Documented isWord) :
    (phone isWord).Separates (phone isWord) redactedPhone where
  filled := by decide
  first a ha prev part next h := by
    obtain rfl := Option.some.inj (ha : some '[' = some a)
    exact (phone_outside redactedPhone_digits h).1
  final a ha prev part next h := by
    obtain rfl := Option.some.inj (ha : some ']' = some a)
    exact (phone_outside redactedPhone_digits h).2.1
  outside prev part next h := (phone_outside redactedPhone_digits h).2.2
  after prev hit a part next hhit h := by
    -- after a number a sign may follow, and a number after the sign
    have ha : isWord a = false := (phone_reads.mp hhit).2.2
    obtain ⟨_, hread, hnext⟩ := phone_reads.mp h
    obtain ⟨b, rest, hpart, hfirst⟩ := (number_reads hread).2
    obtain ⟨rfl, rfl⟩ := List.cons.inj hpart
    rcases hfirst with hdigit | ⟨rfl, hrest⟩
    · rw [hdoc.digit a hdigit] at ha
      cases ha
    · exact ⟨['+'], part, rfl, phone_reads.mpr ⟨(isWord_brackets hdoc).2.2.2, hrest, hnext⟩⟩
  before prev part z a hit next hhit h := by
    obtain ⟨body, z', hpart, hz⟩ := (number_reads (phone_reads.mp h).2.1).1
    obtain rfl := List.head_eq_of_cons_eq (List.append_inj' hpart rfl).2
    have hword : isWord z = false := (phone_reads.mp hhit).1
    rw [hdoc.digit z hz] at hword
    cases hword

/-- **Until the cut no contact data is left.** -/
theorem redact_contains (hdoc : Documented isWord) (text : List Char) :
    ¬ (email isWord).Contains (redact isWord text) ∧ ¬ (phone isWord).Contains (redact isWord text) := by
  constructor
  · intro h
    have hearlier := Regex.contains_of_sub phone_solid (phone_email_separates hdoc) h
    exact Regex.not_contains_sub email_solid (email_separates hdoc) hearlier
  · exact Regex.not_contains_sub phone_solid (phone_separates hdoc)

/-- Without contact data a text stays. -/
theorem redact_eq_self {text : List Char} (hemail : ¬ (email isWord).Contains text)
    (hphone : ¬ (phone isWord).Contains text) : redact isWord text = text := by
  rw [redact, Regex.sub_eq_self email_solid hemail, Regex.sub_eq_self phone_solid hphone]

end Reading

/-! ## 3. Spaces -/

section Spaces

variable {w s : List Char} {r : Regex Char} {pieces : List (Piece Char Unit)}

/-- The last character, if there is one, is no white space. -/
def EndsFilled (text : List Char) : Prop := ∃ d ∈ text.getLast?, isSpace d = false

theorem put_endsFilled (hw : EndsFilled w) (h : EndsFilled (text pieces)) :
    EndsFilled (put w pieces) := by
  rcases List.eq_nil_or_concat' pieces with rfl | ⟨pieces, piece, rfl⟩
  · exact h
  · cases piece with
    | plain c =>
      rw [text_append, text_plain, text_nil, EndsFilled, List.getLast?_concat] at h
      rw [put_append, put_plain, put_nil, EndsFilled, List.getLast?_concat]
      exact h
    | hit part u =>
      have hne : w ≠ [] := by
        intro hnil
        obtain ⟨d, hd, _⟩ := hw
        rw [hnil] at hd
        cases hd
      rw [put_append, put_hit, put_nil, List.append_nil, EndsFilled,
        List.getLast?_append_of_ne_nil _ hne]
      exact hw

theorem endsFilled_join : ∀ {ws : List (List Char)},
    (∀ word ∈ ws, word ≠ [] ∧ ∀ c ∈ word, isSpace c = false) → ws ≠ [] →
    EndsFilled ([' '].intercalate ws)
  | [], _, hne => absurd rfl hne
  | [word], h, _ => by
      obtain ⟨hne, hspace⟩ := h word List.mem_cons_self
      obtain ⟨body, d, rfl⟩ := (List.eq_nil_or_concat' word).resolve_left hne
      rw [List.intercalate_singleton]
      exact ⟨d, List.getLast?_concat, hspace d (List.mem_append_right _ List.mem_cons_self)⟩
  | word :: next :: rest, h, _ => by
      have hrest : EndsFilled ([' '].intercalate (next :: rest)) :=
        endsFilled_join (fun w hw => h w (List.mem_cons_of_mem word hw)) (List.cons_ne_nil _ _)
      obtain ⟨d, hd, hspace⟩ := hrest
      refine ⟨d, ?_, hspace⟩
      rw [List.intercalate_cons_cons, List.getLast?_append, hd]
      rfl

/-- Single spaces stay, if what is put in has single spaces and ends in none. -/
theorem sub_singleSpaced (hsolid : r.Solid) (hw : SingleSpaced w) (hend : EndsFilled w)
    (h : SingleSpaced s) : SingleSpaced (r.sub w s) := by
  intro before c after hput hc
  obtain ⟨hscanned, htext⟩ := Regex.scanned_reading hsolid s
  obtain ⟨left, piece, right, start, rest, hpieces, hin, rfl, _⟩ := flatMap_eq_append_cons hput
  cases piece with
  | plain d =>
    obtain ⟨rfl, rfl, rfl⟩ := plain_source (τ := Unit) hin
    rw [hpieces, text_append, text_plain] at htext
    obtain ⟨hblank, hlast⟩ := h _ d _ htext.symm hc
    rw [List.append_nil]
    exact ⟨hblank, put_endsFilled hend hlast⟩
  | hit part u =>
    obtain ⟨hblank, d, hd, hspace⟩ := hw start c rest hin hc
    refine ⟨hblank, d, ?_, hspace⟩
    rw [List.getLast?_append, hd]
    rfl

theorem sub_endsFilled (hsolid : r.Solid) (hend : EndsFilled w) (h : s = [] ∨ EndsFilled s) :
    r.sub w s = [] ∨ EndsFilled (r.sub w s) := by
  rcases h with rfl | h
  · exact .inl rfl
  · refine .inr (put_endsFilled hend ?_)
    rw [(Regex.scanned_reading hsolid s).2]
    exact h

theorem redacted_spaces : (SingleSpaced redactedEmail ∧ EndsFilled redactedEmail) ∧
    SingleSpaced redactedPhone ∧ EndsFilled redactedPhone := by
  have hwords : ∀ w ∈ ["[redacted".toList, "email]".toList, "phone]".toList],
      w ≠ [] ∧ ∀ c ∈ w, isSpace c = false := by
    simp only [← List.all_eq_true, ← Bool.not_eq_true', ← List.isEmpty_eq_false_iff]
    decide
  have hemail : redactedEmail = [' '].intercalate ["[redacted".toList, "email]".toList] := rfl
  have hphone : redactedPhone = [' '].intercalate ["[redacted".toList, "phone]".toList] := rfl
  rw [hemail, hphone]
  refine ⟨⟨singleSpaced_join ?_, endsFilled_join ?_ (by decide)⟩, singleSpaced_join ?_,
    endsFilled_join ?_ (by decide)⟩
  all_goals
    intro w hw
    refine hwords w ?_
    simp only [List.mem_cons, List.not_mem_nil, or_false] at hw ⊢
    rcases hw with h | h
    all_goals simp only [h, true_or, or_true]

/-- **What is cut off** has single spaces and none at its end. -/
theorem redact_spaces {isWord : Char → Bool} (value : List Char) :
    SingleSpaced (redact isWord (collapse value)) ∧
      (redact isWord (collapse value)).getLast? ≠ some ' ' := by
  obtain ⟨⟨hemail, hemailEnd⟩, hphone, hphoneEnd⟩ := redacted_spaces
  constructor
  · exact sub_singleSpaced phone_solid hphone hphoneEnd
      (sub_singleSpaced email_solid hemail hemailEnd (singleSpaced_collapse value))
  · have hcollapse : collapse value = [] ∨ EndsFilled (collapse value) := by
      by_cases hnone : words value = []
      · exact .inl (by rw [collapse, hnone]; rfl)
      · exact .inr (endsFilled_join (fun _ => mem_words) hnone)
    intro hspace
    rcases sub_endsFilled phone_solid hphoneEnd (sub_endsFilled email_solid hemailEnd hcollapse) with
      hnil | ⟨d, hd, hfilled⟩
    · rw [redact, hnil] at hspace
      cases hspace
    · obtain rfl := Option.some.inj (hspace.symm.trans hd)
      cases hfilled

end Spaces

/-! ## 4. The cut -/

section Cut

variable {isWord : Char → Bool} {text : List Char} {limit : Int}

/-- The cut takes nothing from the end of the text on a second time; it does not go through a
    word whose beginning looks like contact data, nor behind a space. -/
structure CutsWell (isWord : Char → Bool) (text : List Char) (limit : Int) : Prop where
  forward : 0 ≤ limit ∨ text.length ≤ limit.natAbs
  word : ∀ before part c after, text = before ++ (part ++ c :: after) →
    (before ++ part).length = kept limit text.length → isWord c = true →
    ¬ (email isWord).Reads before.getLast? part none ∧
      ¬ (phone isWord).Reads before.getLast? part none
  space : ∀ before c after, text = before ++ ' ' :: c :: after →
    before.length + 1 ≠ kept limit text.length

/-- What the copilot promises of its texts: no contact data, and nothing more to do. -/
structure Redacted (isWord : Char → Bool) (value : String) (limit : Int) : Prop where
  email : ¬ (email isWord).Contains (safeText isWord value limit).toList
  phone : ¬ (phone isWord).Contains (safeText isWord value limit).toList
  stable : safeText isWord (safeText isWord value limit) limit = safeText isWord value limit

theorem kept_kept {length : Nat} : kept limit (kept limit length) = kept limit length ↔
    0 ≤ limit ∨ length ≤ limit.natAbs := by
  unfold kept
  split <;> omega

theorem kept_le (length : Nat) : kept limit length ≤ length := Nat.min_le_left _ _

/-- A pattern that needs no word behind it. -/
def EndsWords (isWord : Char → Bool) (r : Regex Char) : Prop :=
  ∀ prev part next next', r.Reads prev part next → Option.any isWord next' = false →
    r.Reads prev part next'

theorem email_endsWords (hdoc : Documented isWord) : EndsWords isWord (email isWord) := by
  intro prev part next next' h hnext
  obtain ⟨hbefore, hread, _⟩ := (email_reads hdoc).mp h
  exact (email_reads hdoc).mpr ⟨hbefore, hread, hnext⟩

theorem phone_endsWords : EndsWords isWord (phone isWord) := by
  intro prev part next next' h hnext
  obtain ⟨hbefore, hread, _⟩ := phone_reads.mp h
  exact phone_reads.mpr ⟨hbefore, hread, hnext⟩

/-- **Contact data that the cut makes** ends where a word is cut through. -/
theorem contains_take {r : Regex Char} (hends : EndsWords isWord r) (hnone : ¬ r.Contains text)
    {n : Nat} (hn : n ≤ text.length) :
    r.Contains (text.take n) ↔ ∃ before part c after, text = before ++ (part ++ c :: after) ∧
      (before ++ part).length = n ∧ isWord c = true ∧ r.Reads before.getLast? part none := by
  have hsplit : text.take n ++ text.drop n = text := List.take_append_drop n text
  constructor
  · intro h
    rcases Regex.contains_front h with hall | ⟨before, part, htake, hread⟩
    · rw [hsplit] at hall
      exact absurd hall hnone
    · rw [htake, List.append_assoc] at hsplit
      cases hdrop : text.drop n with
      | nil =>
        rw [hdrop] at hsplit
        exact absurd ⟨before, part, [], hsplit.symm, hread⟩ hnone
      | cons c after =>
        rw [hdrop] at hsplit
        refine ⟨before, part, c, after, hsplit.symm, ?_, ?_, hread⟩
        · rw [← htake, List.length_take_of_le hn]
        · by_contra hword
          exact hnone ⟨before, part, c :: after, hsplit.symm,
            hends _ _ _ _ hread (Bool.eq_false_iff.mpr hword)⟩
  · intro ⟨before, part, c, after, htext, hlength, _, hread⟩
    refine ⟨before, part, [], ?_, hread⟩
    rw [htext, ← List.append_assoc, ← hlength, List.take_left, List.append_nil]

/-- **A text that is applied again**: it stays as it is if no space is at its end and the limit
    leaves it. -/
theorem safeText_again (hdoc : Documented isWord) (hspaced : SingleSpaced text)
    (hemail : ¬ (email isWord).Contains text) (hphone : ¬ (phone isWord).Contains text) :
    safeText isWord (String.ofList text) limit = String.ofList text ↔
      text.getLast? ≠ some ' ' ∧ kept limit text.length = text.length := by
  have hagain : ∀ {front : List Char}, redact isWord (collapse text) = front →
      (safeText isWord (String.ofList text) limit = String.ofList text ↔
        front.take (kept limit front.length) = text) := by
    rintro front rfl
    unfold safeText
    rw [String.toList_ofList, String.ofList_inj]
  by_cases hlast : text.getLast? = some ' '
  · obtain ⟨front, rfl⟩ := List.getLast?_eq_some_iff.mp hlast
    have hfront : ∀ {r : Regex Char}, EndsWords isWord r → ¬ r.Contains (front ++ [' ']) →
        ¬ r.Contains front := by
      intro r hends hnone h
      rcases Regex.contains_front h with hall | ⟨before, part, rfl, hread⟩
      · exact hnone hall
      · exact hnone ⟨before, part, [' '], List.append_assoc _ _ _,
          hends _ _ _ _ hread (isWord_brackets hdoc).2.2.1⟩
    have hself : redact isWord (collapse (front ++ [' '])) = front := by
      rw [collapse_concat hspaced, redact_eq_self (hfront (email_endsWords hdoc) hemail)
        (hfront phone_endsWords hphone)]
    rw [hagain hself]
    constructor
    · intro h
      have hlength := congrArg List.length h
      have hle := List.length_take_le' (kept limit front.length) front
      rw [hlength, List.length_append, List.length_singleton] at hle
      omega
    · intro h
      exact absurd hlast h.1
  · have hself : redact isWord (collapse text) = text := by
      rw [collapse_eq_self hspaced hlast, redact_eq_self hemail hphone]
    rw [hagain hself, List.take_eq_self_iff]
    have hle : kept limit text.length ≤ text.length := kept_le _
    constructor
    · intro h
      exact ⟨hlast, Nat.le_antisymm hle h⟩
    · intro h
      exact Nat.le_of_eq h.2.symm

/-- A cut behind a space. -/
theorem getLast?_take_iff (hend : text.getLast? ≠ some ' ') {n : Nat} (hn : n ≤ text.length) :
    (text.take n).getLast? ≠ some ' ' ↔
      ∀ before c after, text = before ++ ' ' :: c :: after → before.length + 1 ≠ n := by
  constructor
  · rintro hlast before c after rfl rfl
    refine hlast ?_
    rw [List.append_cons, List.take_left' (by simp), List.getLast?_concat]
  · intro hspace hlast
    have hsplit : text.take n ++ text.drop n = text := List.take_append_drop n text
    obtain ⟨before, htake⟩ := List.getLast?_eq_some_iff.mp hlast
    have hlength := congrArg List.length htake
    rw [List.length_take_of_le hn, List.length_append, List.length_singleton] at hlength
    rw [htake] at hsplit
    cases hdrop : text.drop n with
    | nil =>
      rw [hdrop, List.append_nil] at hsplit
      exact hend (by rw [← hsplit, List.getLast?_concat])
    | cons c after =>
      rw [hdrop, List.append_assoc] at hsplit
      exact hspace before c after hsplit.symm hlength.symm

/-- **Redaction**, for every text and every limit: the result has no contact data and is stable
    exactly if the cut goes neither through a word that begins like contact data nor behind a
    space. -/
theorem redaction_law (hdoc : Documented isWord) (value : String) (limit : Int) :
    Redacted isWord value limit ↔ CutsWell isWord (redact isWord (collapse value.toList)) limit := by
  obtain ⟨t, ht⟩ : ∃ t, redact isWord (collapse value.toList) = t := ⟨_, rfl⟩
  have hspaces : SingleSpaced (redact isWord (collapse value.toList)) ∧
      (redact isWord (collapse value.toList)).getLast? ≠ some ' ' := redact_spaces value.toList
  obtain ⟨hspaced, hend⟩ := hspaces
  obtain ⟨hemail, hphone⟩ := redact_contains hdoc (collapse value.toList)
  have hsafe : safeText isWord value limit = String.ofList (t.take (kept limit t.length)) := by
    rw [safeText, ht]
  rw [ht] at hspaced hend hemail hphone ⊢
  have hle : kept limit t.length ≤ t.length := kept_le _
  have hlength : (t.take (kept limit t.length)).length = kept limit t.length :=
    List.length_take_of_le hle
  have hfront : SingleSpaced (t.take (kept limit t.length)) := by
    rw [← List.take_append_drop (kept limit t.length) t] at hspaced
    exact hspaced.beginning
  have hemailIff := contains_take (email_endsWords hdoc) hemail hle
  have hphoneIff := contains_take phone_endsWords hphone hle
  have hspaceIff := getLast?_take_iff hend hle
  constructor
  · intro ⟨hnoEmail, hnoPhone, hstable⟩
    rw [hsafe, String.toList_ofList] at hnoEmail hnoPhone
    rw [hsafe, safeText_again hdoc hfront hnoEmail hnoPhone, hlength, kept_kept] at hstable
    refine ⟨hstable.2, fun before part c after htext hcut hword => ⟨fun h => ?_, fun h => ?_⟩,
      hspaceIff.mp hstable.1⟩
    · exact hnoEmail (hemailIff.mpr ⟨before, part, c, after, htext, hcut, hword, h⟩)
    · exact hnoPhone (hphoneIff.mpr ⟨before, part, c, after, htext, hcut, hword, h⟩)
  · intro ⟨hforward, hword, hspace⟩
    have hnoEmail : ¬ (email isWord).Contains (t.take (kept limit t.length)) := by
      intro h
      obtain ⟨before, part, c, after, htext, hcut, hc, hread⟩ := hemailIff.mp h
      exact (hword before part c after htext hcut hc).1 hread
    have hnoPhone : ¬ (phone isWord).Contains (t.take (kept limit t.length)) := by
      intro h
      obtain ⟨before, part, c, after, htext, hcut, hc, hread⟩ := hphoneIff.mp h
      exact (hword before part c after htext hcut hc).2 hread
    refine ⟨?_, ?_, ?_⟩
    · rwa [hsafe, String.toList_ofList]
    · rwa [hsafe, String.toList_ofList]
    · rw [hsafe, safeText_again hdoc hfront hnoEmail hnoPhone, hlength, kept_kept]
      exact ⟨hspaceIff.mpr hspace, hforward⟩

/-- A text that fits is not cut. -/
theorem cutsWell_of_fits (h : (text.length : Int) ≤ limit) : CutsWell isWord text limit := by
  have hall : kept limit text.length = text.length := by
    unfold kept
    split <;> omega
  refine ⟨by omega, fun before part c after htext hcut _ => ?_, fun before c after htext hcut => ?_⟩
  · rw [hall, htext] at hcut
    simp only [List.length_append, List.length_cons] at hcut
    omega
  · rw [hall, htext] at hcut
    simp only [List.length_append, List.length_cons] at hcut
    omega

/-- The characters `\w` matches in ASCII, and what the patterns need beyond. -/
def sampleWord (c : Char) : Bool := isDecimal c || isLetter c || (c.isAlphanum || c = '_')

theorem sampleWord_documented : Documented sampleWord where
  ascii c hc := by
    have hall : ∀ n < 128, (isDecimal (Char.ofNat n) || isLetter (Char.ofNat n) ||
        ((Char.ofNat n).isAlphanum || Char.ofNat n = '_')) =
          ((Char.ofNat n).isAlphanum || Char.ofNat n = '_') := by decide
    have hc' := hall c.toNat hc
    rwa [Char.ofNat_toNat] at hc'
  digit c hc := by
    rw [sampleWord, hc]
    rfl
  letter c hc := by
    have hletter : isLetter c = true := by
      rw [isLetter, List.contains_iff_mem.mpr hc, Bool.or_true]
    rw [sampleWord, hletter, Bool.or_true]
    rfl

/-- A number is redacted, and nothing is left to do. -/
theorem redaction_law_call :
    safeText sampleWord "call 555-1234-567 now" 300 = "call [redacted phone] now" ∧
      Redacted sampleWord "call 555-1234-567 now" 300 := by
  refine ⟨by decide +kernel, (redaction_law sampleWord_documented _ _).mpr (cutsWell_of_fits ?_)⟩
  decide +kernel

/-- A cut through a word leaves a number. -/
theorem cut_leaves_number :
    ¬ ∀ (isWord : Char → Bool), Documented isWord → ∀ (value : String) (limit : Int),
      Redacted isWord value limit := by
  intro hclaim
  have hphone := (hclaim sampleWord sampleWord_documented "call 123456789a" 14).phone
  have hsafe : safeText sampleWord "call 123456789a" 14 = "call 123456789" := by decide +kernel
  rw [hsafe] at hphone
  have hread : "123456789".toList.length ∈ (phone sampleWord).lengths "call ".toList.getLast?
      ("123456789".toList ++ []) := by decide +kernel
  exact hphone ⟨"call ".toList, "123456789".toList, [], by decide, Regex.mem_lengths_iff.mp hread⟩

end Cut


end Helpdesk.AnalystCopilot
