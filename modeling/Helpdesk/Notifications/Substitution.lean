/-
  File:      Helpdesk/Notifications/Substitution.lean
  Subject:   The renderer as a substitution.

  `_TOKEN` reads `{{`, white space, a name, white space and `}}`, so a brace of a token
  is at one of its ends. Three braces in a row are refused before anything else: a token
  has no brace next to it, and what is left without the tokens has two braces in a row
  only where the template has them outside its tokens.

  * `token?_eq_some_iff`: what `_TOKEN` reads;
  * `exists_segments`: the segments of a template are its reading;
  * `braces_belong_iff`: when the residue is free of braces;
  * `render_template_law`: what is accepted, and what comes out of it.
-/
import Helpdesk.Lib.Scanning
import Helpdesk.Notifications.Rendering
import Helpdesk.Python.Words
import Mathlib.Data.List.Infix

namespace Helpdesk.Notifications

open Helpdesk.Python Helpdesk.Scanning

variable {c : Char} {name : String} {s part rest front back : List Char}

/-! ## 1. Tokens -/

/-- A name of `_TOKEN`. -/
def IsName (name : List Char) : Prop :=
  ∃ c cs, name = c :: cs ∧ isLetter c = true ∧ ∀ d ∈ cs, isNameChar d = true

/-- A well-formed token of a variable. -/
def IsToken (part : List Char) (name : String) : Prop :=
  ∃ before after, Blank before ∧ Blank after ∧ IsName name.toList ∧
    part = openBrace :: openBrace :: (before ++ (name.toList ++ (after ++ [closeBrace, closeBrace])))

theorem IsName.all (h : IsName s) : ∀ d ∈ s, isNameChar d = true := by
  obtain ⟨c, cs, rfl, hc, hcs⟩ := h
  intro d hd
  cases hd with
  | head => rw [isNameChar, hc]; rfl
  | tail _ hd => exact hcs d hd

/-- A character of a name is neither white space nor a brace. -/
theorem isNameChar_class (h : isNameChar c = true) :
    isSpace c = false ∧ c ≠ openBrace ∧ c ≠ closeBrace := by
  have hcode : c.toNat = c.val.toNat := rfl
  have hvalues : ∀ d : Char, c = d → c.val.toNat = d.val.toNat := fun d hd => by rw [hd]
  have hunderscore := hvalues '_'
  simp only [isNameChar, isLetter, Bool.or_eq_true, Bool.and_eq_true, decide_eq_true_eq,
    Char.le_def, UInt32.le_iff_toNat_le] at h
  simp at h hunderscore
  have hrange : (97 ≤ c.val.toNat ∧ c.val.toNat ≤ 122) ∨ (48 ≤ c.val.toNat ∧ c.val.toNat ≤ 57) ∨
      c.val.toNat = 95 := by
    rcases h with (h | h) | h
    · exact .inl h
    · exact .inr (.inl h)
    · exact .inr (.inr (hunderscore h))
  refine ⟨?_, ?_, ?_⟩
  · rw [Bool.eq_false_iff]
    intro hspace
    simp only [isSpace, Bool.or_eq_true, Bool.and_eq_true, decide_eq_true_eq,
      List.contains_iff_mem, List.mem_cons, List.not_mem_nil, or_false, hcode] at hspace
    omega
  · intro hbrace
    have := hvalues _ hbrace
    simp [openBrace] at this
    omega
  · intro hbrace
    have := hvalues _ hbrace
    simp [closeBrace] at this
    omega

theorem isSpace_braces (h : isSpace c = true) : c ≠ openBrace ∧ c ≠ closeBrace := by
  constructor <;> (rintro rfl; cases h)

/-- A text up to the first character that is not of a kind. -/
theorem span_append {p : Char → Bool} (front back : List Char) (hfront : ∀ d ∈ front, p d = true)
    (hback : ∀ d ∈ back.head?, p d = false) :
    (front ++ back).takeWhile p = front ∧ (front ++ back).dropWhile p = back := by
  rw [List.takeWhile_append_of_pos hfront, List.dropWhile_append_of_pos hfront]
  cases back with
  | nil => simp
  | cons d back =>
    have hd : p d = false := hback d rfl
    simp [hd]

/-- **What `_TOKEN` reads.** -/
theorem token?_eq_some_iff :
    token? s = some (name, rest) ↔ ∃ part, IsToken part name ∧ s = part ++ rest := by
  constructor
  · intro h
    match s, h with
    | a :: b :: inside, h =>
      rw [token?] at h
      split at h
      case isFalse => cases h
      case isTrue hbraces =>
        obtain ⟨rfl, rfl⟩ := hbraces
        dsimp only at h
        split at h
        case h_2 => cases h
        case h_1 d e after hafter =>
          split at h
          case isFalse => cases h
          case isTrue hname =>
            obtain ⟨hhead, rfl, rfl⟩ := hname
            obtain ⟨rfl, rfl⟩ := Prod.mk.inj (Option.some.inj h)
            generalize hin : inside.dropWhile isSpace = inner at *
            have hinside : inside.takeWhile isSpace ++ inner = inside := by
              rw [← hin]; exact List.takeWhile_append_dropWhile
            have hinner : inner.takeWhile isNameChar ++ inner.dropWhile isNameChar = inner :=
              List.takeWhile_append_dropWhile
            have hrest : (inner.dropWhile isNameChar).takeWhile isSpace ++
                closeBrace :: closeBrace :: after = inner.dropWhile isNameChar := by
              rw [← hafter]; exact List.takeWhile_append_dropWhile
            refine ⟨_, ⟨inside.takeWhile isSpace, (inner.dropWhile isNameChar).takeWhile isSpace,
              fun d hd => List.mem_takeWhile_imp hd, fun d hd => List.mem_takeWhile_imp hd, ?_,
              rfl⟩, ?_⟩
            · rw [String.toList_ofList]
              cases hn : inner.takeWhile isNameChar with
              | nil => rw [hn] at hhead; cases hhead
              | cons d ds =>
                rw [hn] at hhead
                refine ⟨d, ds, rfl, hhead, fun e he => ?_⟩
                have hmem : e ∈ inner.takeWhile isNameChar := by
                  rw [hn]; exact List.mem_cons_of_mem d he
                exact List.mem_takeWhile_imp hmem
            · rw [String.toList_ofList]
              simp only [List.cons_append, List.append_assoc, List.nil_append, hrest, hinner,
                hinside]
  · rintro ⟨part, ⟨before, after, hbefore, hafter, hname, rfl⟩, rfl⟩
    have hall := hname.all
    obtain ⟨d, ds, hn, hd, hds⟩ := hname
    have hspace := (isNameChar_class (hall d (by rw [hn]; exact List.mem_cons_self))).1
    -- white space, the name and white space end where the next part begins
    have hfirst := span_append before (name.toList ++ (after ++ closeBrace :: closeBrace :: rest))
      hbefore (by
        intro e he
        rw [hn] at he
        cases he
        exact hspace)
    have hsecond := span_append name.toList (after ++ closeBrace :: closeBrace :: rest) hall (by
        intro e he
        cases after with
        | nil => cases he; decide
        | cons f after =>
          cases he
          rw [Bool.eq_false_iff]
          intro hchar
          have hf := hafter _ List.mem_cons_self
          rw [(isNameChar_class hchar).1] at hf
          cases hf)
    have hthird := span_append after (closeBrace :: closeBrace :: rest) hafter (by
        intro e he
        cases he
        decide)
    have htext : openBrace :: openBrace :: (before ++ (name.toList ++ (after ++
        [closeBrace, closeBrace]))) ++ rest =
        openBrace :: openBrace :: (before ++ (name.toList ++ (after ++
          closeBrace :: closeBrace :: rest))) := by
      simp
    rw [htext, token?, if_pos ⟨rfl, rfl⟩]
    dsimp only
    rw [hfirst.2, hsecond.1, hsecond.2, hthird.2]
    have hhead : name.toList.head?.any isLetter = true := by
      rw [hn]; exact hd
    dsimp only
    rw [if_pos ⟨hhead, rfl, rfl⟩, String.ofList_toList]

/-- A token has its braces at its ends only. -/
theorem IsToken.middle (h : IsToken part name) :
    ∃ middle, part = openBrace :: openBrace :: (middle ++ [closeBrace, closeBrace]) ∧ middle ≠ [] ∧
      ∀ c ∈ middle, c ≠ openBrace ∧ c ≠ closeBrace := by
  obtain ⟨before, after, hbefore, hafter, hname, rfl⟩ := h
  refine ⟨before ++ (name.toList ++ after), ?_, ?_, ?_⟩
  · simp
  · obtain ⟨d, ds, hn, -⟩ := hname
    rw [hn]
    simp
  · intro c hc
    rcases List.mem_append.mp hc with hc | hc
    · exact isSpace_braces (hbefore c hc)
    rcases List.mem_append.mp hc with hc | hc
    · exact (isNameChar_class (hname.all c hc)).2
    · exact isSpace_braces (hafter c hc)

/-- An opening brace of a token is one of its first two. -/
theorem IsToken.open_at (h : IsToken part name) (hpart : part = front ++ openBrace :: back) :
    front = [] ∨ ∃ c more, back = c :: more ∧ c ≠ openBrace := by
  obtain ⟨middle, rfl, hne, hmiddle⟩ := h.middle
  have hend : ∀ c ∈ middle ++ [closeBrace, closeBrace], c ≠ openBrace := by
    intro c hc
    rcases List.mem_append.mp hc with hc | hc
    · exact (hmiddle c hc).1
    · simp only [List.mem_cons, List.not_mem_nil, or_false, or_self] at hc
      rw [hc]
      decide
  match front, hpart with
  | [], _ => exact .inl rfl
  | [_], hpart =>
    obtain ⟨-, hrest⟩ := List.cons.inj hpart
    obtain ⟨-, hrest⟩ := List.cons.inj hrest
    obtain ⟨c, more, hmore⟩ := List.exists_cons_of_ne_nil hne
    refine .inr ⟨c, more ++ [closeBrace, closeBrace], ?_, (hmiddle c ?_).1⟩
    · rw [← hrest, hmore, List.cons_append]
    · rw [hmore]; exact List.mem_cons_self
  | _ :: _ :: front, hpart =>
    obtain ⟨-, hrest⟩ := List.cons.inj hpart
    obtain ⟨-, hrest⟩ := List.cons.inj hrest
    exact absurd rfl (hend openBrace (by rw [hrest]; simp))

/-- A closing brace of a token is one of its last two. -/
theorem IsToken.close_at (h : IsToken part name) (hpart : part = front ++ closeBrace :: back) :
    back = [closeBrace] ∨ back = [] := by
  obtain ⟨middle, rfl, -, hmiddle⟩ := h.middle
  have hbegin : ∀ c ∈ openBrace :: openBrace :: middle, c ≠ closeBrace := by
    intro c hc
    simp only [List.mem_cons] at hc
    rcases hc with rfl | rfl | hc
    · decide
    · decide
    · exact (hmiddle c hc).2
  have hsplit : (openBrace :: openBrace :: middle) ++ [closeBrace, closeBrace] =
      front ++ closeBrace :: back := hpart
  rcases List.append_eq_append_iff.mp hsplit with ⟨more, -, hmore⟩ | ⟨more, hmore, hback⟩
  · match more, hmore with
    | [], hmore => exact .inl (List.cons.inj hmore).2.symm
    | [_], hmore => exact .inr (List.cons.inj (List.cons.inj hmore).2).2.symm
    | _ :: _ :: more, hmore =>
      have hnil := (List.cons.inj (List.cons.inj hmore).2).2
      exact absurd hnil.symm (by simp)
  · cases more with
    | nil => exact .inl (List.cons.inj hback).2
    | cons c more =>
      obtain ⟨rfl, -⟩ := List.cons.inj hback
      exact absurd rfl (hbegin closeBrace (by rw [hmore]; simp))

/-! ## 2. The reading of a template -/

/-- `_TOKEN` as a pattern. -/
def token : Pattern Char String := fun _ s => token? s

variable {prev : Option Char} {pieces left right : List (Piece Char String)}

theorem consumes_token : Consumes token := by
  intro prev s name rest h
  obtain ⟨part, hpart, rfl⟩ := token?_eq_some_iff.mp h
  obtain ⟨middle, rfl, -⟩ := hpart.middle
  exact ⟨_, List.cons_ne_nil _ _, rfl⟩

/-- A piece of the reading as a segment. -/
def segment : Piece Char String → Segment
  | .plain c => .char c
  | .hit _ name => .token name

theorem segmentsFuel_eq (h : Scanned token prev pieces) :
    ∀ n, (Scanning.text pieces).length ≤ n →
      segmentsFuel n (Scanning.text pieces) = pieces.map segment := by
  induction h with
  | nil => intro n _; cases n <;> rfl
  | plain hnone _ ih =>
    intro n hn
    cases n with
    | zero => cases hn
    | succ n =>
      rw [text_plain, segmentsFuel]
      have hread : token? (_ :: Scanning.text _) = none := hnone
      rw [hread]
      dsimp only
      rw [ih n (Nat.le_of_succ_le_succ hn)]
      rfl
  | @hit prev part name pieces hne hsome _ ih =>
    intro n hn
    have hread : token? (part ++ Scanning.text pieces) = some (name, Scanning.text pieces) := hsome
    obtain ⟨c, more, rfl⟩ := List.exists_cons_of_ne_nil hne
    rw [text_hit, List.cons_append, List.length_cons, List.length_append] at hn
    cases n with
    | zero => cases hn
    | succ n =>
      rw [text_hit, List.cons_append, segmentsFuel, ← List.cons_append, hread]
      dsimp only
      rw [ih n (by omega)]
      rfl

/-- **The segments of a template are its reading.** -/
theorem exists_segments (template : String) :
    ∃ pieces, Scanning.text pieces = template.toList ∧ Scanned token none pieces ∧
      segments template = pieces.map segment := by
  obtain ⟨pieces, htext, hscan⟩ := exists_scanned consumes_token none template.toList
  refine ⟨pieces, htext, hscan, ?_⟩
  rw [segments, ← htext]
  exact segmentsFuel_eq hscan _ (Nat.le_refl _)

theorem segment_literal : (pieces.map segment).flatMap Segment.literal = kept pieces := by
  induction pieces with
  | nil => rfl
  | cons piece pieces ih => cases piece <;> simp [segment, Segment.literal, ih]

theorem segment_names : (pieces.map segment).filterMap Segment.name? = readings pieces := by
  induction pieces with
  | nil => rfl
  | cons piece pieces ih =>
    cases piece with
    | plain c => exact ih
    | hit part name => exact congrArg (name :: ·) ih

theorem isToken_of_hit (h : Scanned token prev (left ++ .hit part name :: right)) :
    IsToken part name := by
  have hread : token? (part ++ Scanning.text right) = some (name, Scanning.text right) := h.next_hit
  obtain ⟨part', hpart', heq⟩ := token?_eq_some_iff.mp hread
  rwa [List.append_cancel_right heq]

/-- **Each token of the template is a hit of its reading.** -/
theorem hit_of_token (h : Scanned token prev pieces) (hpart : IsToken part name)
    (htext : Scanning.text pieces = front ++ (part ++ back)) :
    ∃ left right, pieces = left ++ .hit part name :: right ∧ Scanning.text left = front ∧
      Scanning.text right = back := by
  obtain ⟨middle, hmiddle, -⟩ := hpart.middle
  have hfirst : Scanning.text pieces = front ++ openBrace :: openBrace ::
      (middle ++ [closeBrace, closeBrace] ++ back) := by
    rw [htext, hmiddle]; rfl
  obtain ⟨left, piece, right, before, after, rfl, hsource, rfl, hafter⟩ := text_eq_append_cons hfirst
  have hread : token? (part ++ back) = some (name, back) := token?_eq_some_iff.mpr ⟨part, hpart, rfl⟩
  cases piece with
  | plain c =>
    -- the pattern reads something there
    obtain ⟨rfl, rfl, rfl⟩ := plain_source hsource
    have hnone : token? (openBrace :: Scanning.text right) = none := h.next_plain
    rw [text_append, text_plain, List.append_nil] at htext
    rw [List.append_cancel_left htext, hread] at hnone
    cases hnone
  | hit part' name' =>
    rcases (isToken_of_hit h).open_at hsource with rfl | ⟨c, more, rfl, hc⟩
    · rw [text_append, text_hit, List.append_nil] at htext
      have hrest := List.append_cancel_left htext
      have hread' : token? (part' ++ Scanning.text right) = some (name', Scanning.text right) :=
        h.next_hit
      rw [hrest, hread] at hread'
      obtain ⟨rfl, rfl⟩ := Prod.mk.inj (Option.some.inj hread')
      rw [List.append_cancel_right hrest]
      exact ⟨left, right, rfl, by rw [List.append_nil], rfl⟩
    · exact absurd (List.cons.inj hafter).1.symm hc

/-! ## 3. Braces -/

/-- Each pair of these braces belongs to a well-formed token of an allowed variable. -/
def BracesBelong (allowed : List String) (brace : Char) (s : List Char) : Prop :=
  ∀ front back, s = front ++ brace :: brace :: back →
    ∃ before part after name, s = before ++ (part ++ after) ∧ IsToken part name ∧ name ∈ allowed ∧
      before.length ≤ front.length ∧ front.length + 2 ≤ before.length + part.length

/-- Neither three opening nor three closing braces in a row. -/
def NoTriples (s : List Char) : Prop :=
  ¬ [openBrace, openBrace, openBrace] <:+: s ∧ ¬ [closeBrace, closeBrace, closeBrace] <:+: s

variable {allowed : List String}

/-- The hit a pair of braces belongs to. -/
theorem BracesBelong.hit {brace : Char} (hbelong : BracesBelong allowed brace s)
    (h : Scanned token prev pieces) (hs : Scanning.text pieces = s)
    (hpair : s = front ++ brace :: brace :: back) :
    ∃ left part name right, pieces = left ++ .hit part name :: right ∧ name ∈ allowed ∧
      (Scanning.text left).length ≤ front.length ∧
      front.length + 2 ≤ (Scanning.text left).length + part.length := by
  obtain ⟨before, part, after, name, htext, hpart, hname, hlow, hhigh⟩ := hbelong front back hpair
  obtain ⟨left, right, hpieces, rfl, rfl⟩ := hit_of_token h hpart (hs.trans htext)
  exact ⟨left, part, name, right, hpieces, hname, hlow, hhigh⟩

/-- A pair that belongs to a token is not left without the tokens. -/
theorem BracesBelong.kept {brace : Char} (hbelong : BracesBelong allowed brace s)
    (h : Scanned token prev pieces) (hs : Scanning.text pieces = s)
    (hapart : ∀ left middle right, pieces = left ++ .plain brace :: (middle ++ .plain brace :: right) →
      Scanning.kept middle = [] → middle = []) :
    ¬ [brace, brace] <:+: Scanning.kept pieces := by
  intro ⟨front, back, heq⟩
  have hkept : Scanning.kept pieces = front ++ brace :: brace :: back := by
    rw [← heq]; simp
  obtain ⟨left, middle, right, hpieces, -, hmiddle, -⟩ := kept_eq_append_pair hkept
  obtain rfl := hapart left middle right hpieces hmiddle
  rw [List.nil_append] at hpieces
  have hpair : s = Scanning.text left ++ brace :: brace :: Scanning.text right := by
    rw [← hs, hpieces]; simp
  obtain ⟨left', part, name, right', hpieces', -, hlow, hhigh⟩ := hbelong.hit h hs hpair
  have hone : (Piece.plain brace : Piece Char String) = .hit part name := by
    have hwhole := hpieces.symm.trans hpieces'
    refine (piece_unique (n := (Scanning.text left).length) hwhole (Nat.le_refl _) ?_ hlow ?_).2.1
    · exact Nat.lt_succ_self _
    · show (Scanning.text left).length < (Scanning.text left').length + part.length
      omega
  cases hone

/-- **A token has no brace of its kind next to it**, so a pair of braces that is left once
    the tokens are gone is one of the template. -/
theorem openBraces_apart (h : Scanned token prev pieces) (htriple : NoTriples (Scanning.text pieces)) :
    ∀ left middle right, pieces = left ++ .plain openBrace :: (middle ++ .plain openBrace :: right) →
      Scanning.kept middle = [] → middle = [] := by
  rintro left middle right rfl hmiddle
  cases middle with
  | nil => rfl
  | cons piece middle =>
    obtain ⟨part, name, rfl⟩ := eq_hit_of_kept_nil hmiddle List.mem_cons_self
    have hsplit : left ++ .plain openBrace :: (.hit part name :: middle ++ .plain openBrace :: right) =
        (left ++ [.plain openBrace]) ++ .hit part name :: (middle ++ .plain openBrace :: right) := by
      simp
    rw [hsplit] at h
    obtain ⟨inner, rfl, -⟩ := (isToken_of_hit h).middle
    refine absurd ⟨Scanning.text left, ?_, ?_⟩ htriple.1
    · exact inner ++ [closeBrace, closeBrace] ++ Scanning.text (middle ++ .plain openBrace :: right)
    · simp

theorem closeBraces_apart (h : Scanned token prev pieces) (htriple : NoTriples (Scanning.text pieces)) :
    ∀ left middle right, pieces = left ++ .plain closeBrace :: (middle ++ .plain closeBrace :: right) →
      Scanning.kept middle = [] → middle = [] := by
  rintro left middle right rfl hmiddle
  rcases List.eq_nil_or_concat' middle with rfl | ⟨middle, piece, rfl⟩
  · rfl
  · obtain ⟨part, name, rfl⟩ :=
      eq_hit_of_kept_nil hmiddle (List.mem_append_right middle (List.mem_singleton_self piece))
    have hsplit : left ++ .plain closeBrace :: (middle ++ [.hit part name] ++ .plain closeBrace :: right) =
        (left ++ .plain closeBrace :: middle) ++ .hit part name :: (.plain closeBrace :: right) := by
      simp
    rw [hsplit] at h
    obtain ⟨inner, rfl, -⟩ := (isToken_of_hit h).middle
    refine absurd ⟨?_, Scanning.text right, ?_⟩ htriple.2
    · exact Scanning.text (left ++ .plain closeBrace :: middle) ++ openBrace :: openBrace :: inner
    · simp

/-- **When the allowlist and the residue let a template pass.** -/
theorem braces_belong_iff (h : Scanned token prev pieces) (htriple : NoTriples (Scanning.text pieces)) :
    ((∀ name ∈ readings pieces, name ∈ allowed) ∧ ¬ [openBrace, openBrace] <:+: Scanning.kept pieces ∧
        ¬ [closeBrace, closeBrace] <:+: Scanning.kept pieces) ↔
      BracesBelong allowed openBrace (Scanning.text pieces) ∧
        BracesBelong allowed closeBrace (Scanning.text pieces) := by
  constructor
  · intro ⟨hnames, hopen, hclose⟩
    have hallowed : ∀ {left part name right}, pieces = left ++ .hit part name :: right →
        name ∈ allowed := by
      rintro left part name right rfl
      exact hnames name (mem_readings.mpr ⟨part, by simp⟩)
    have hplain : ∀ {brace left right}, pieces = left ++ .plain brace :: .plain brace :: right →
        [brace, brace] <:+: Scanning.kept pieces := by
      rintro brace left right rfl
      exact ⟨Scanning.kept left, Scanning.kept right, by simp⟩
    constructor
    · intro front back hpair
      obtain ⟨left, piece, right, before, after, rfl, hsource, rfl, hafter⟩ :=
        text_eq_append_cons hpair
      cases piece with
      | plain c =>
        obtain ⟨rfl, rfl, rfl⟩ := plain_source hsource
        -- what comes next would be one more brace, or a token
        cases right with
        | nil => cases hafter
        | cons piece right =>
          cases piece with
          | plain d =>
            obtain ⟨rfl, -⟩ := List.cons.inj hafter
            exact absurd (hplain rfl) hopen
          | hit part name =>
            have hsplit : left ++ .plain openBrace :: .hit part name :: right =
                (left ++ [.plain openBrace]) ++ .hit part name :: right := by
              simp
            rw [hsplit] at h htriple
            obtain ⟨inner, rfl, -⟩ := (isToken_of_hit h).middle
            refine absurd ⟨Scanning.text left, ?_, ?_⟩ htriple.1
            · exact inner ++ [closeBrace, closeBrace] ++ Scanning.text right
            · simp
      | hit part name =>
        have hpart := isToken_of_hit h
        obtain ⟨inner, hinner, -⟩ := hpart.middle
        rcases hpart.open_at hsource with rfl | ⟨c, more, rfl, hc⟩
        · refine ⟨Scanning.text left, part, Scanning.text right, name, by simp, hpart,
            hallowed rfl, by simp, ?_⟩
          rw [hinner]
          simp
        · exact absurd (List.cons.inj hafter).1.symm hc
    · intro front back hpair
      obtain ⟨left, piece, right, before, after, rfl, hsource, rfl, hafter⟩ :=
        text_eq_append_cons hpair
      cases piece with
      | plain c =>
        obtain ⟨rfl, rfl, rfl⟩ := plain_source hsource
        cases right with
        | nil => cases hafter
        | cons piece right =>
          cases piece with
          | plain d =>
            obtain ⟨rfl, -⟩ := List.cons.inj hafter
            exact absurd (hplain rfl) hclose
          | hit part name =>
            have hsplit : left ++ .plain closeBrace :: .hit part name :: right =
                (left ++ [.plain closeBrace]) ++ .hit part name :: right := by
              simp
            rw [hsplit] at h
            obtain ⟨inner, rfl, -⟩ := (isToken_of_hit h).middle
            exact absurd (List.cons.inj hafter).1 (by decide)
      | hit part name =>
        have hpart := isToken_of_hit h
        rcases hpart.close_at hsource with rfl | rfl
        · refine ⟨Scanning.text left, part, Scanning.text right, name, by simp, hpart,
            hallowed rfl, by simp, ?_⟩
          have hlength : part.length = (before ++ closeBrace :: [closeBrace]).length :=
            congrArg List.length hsource
          simp at hlength ⊢
          omega
        · -- a brace right behind the token would be the third in a row
          obtain ⟨inner, rfl, -⟩ := hpart.middle
          rw [List.nil_append] at hafter
          refine absurd ⟨?_, back, ?_⟩ htriple.2
          · exact Scanning.text left ++ openBrace :: openBrace :: inner
          · simp [← hafter]
  · intro ⟨hopen, hclose⟩
    refine ⟨?_, hopen.kept h rfl (openBraces_apart h htriple),
      hclose.kept h rfl (closeBraces_apart h htriple)⟩
    intro name hname
    obtain ⟨part, hmem⟩ := mem_readings.mp hname
    obtain ⟨left, right, rfl⟩ := List.append_of_mem hmem
    obtain ⟨middle, hpart, -⟩ := (isToken_of_hit h).middle
    have hpair : Scanning.text (left ++ .hit part name :: right) = Scanning.text left ++
        openBrace :: openBrace :: (middle ++ [closeBrace, closeBrace] ++ Scanning.text right) := by
      rw [hpart]; simp
    obtain ⟨left', part', name', right', hpieces, hallowed, hlow, hhigh⟩ := hopen.hit h rfl hpair
    have hlength : 2 ≤ part.length := by rw [hpart]; simp
    obtain ⟨-, hsame, -⟩ := piece_unique (n := (Scanning.text left).length) hpieces (Nat.le_refl _)
      (by show _ < _ + part.length; omega) hlow (by show _ < _ + part'.length; omega)
    obtain ⟨-, rfl⟩ := Piece.hit.inj hsame
    exact hallowed

/-! ## 4. The renderer -/

theorem isIn_iff : isIn part s = true ↔ part <:+: s := by
  rw [isIn, List.any_eq_true, List.infix_iff_prefix_suffix]
  constructor
  · intro ⟨tail, htail, hpart⟩
    exact ⟨tail, List.isPrefixOf_iff_prefix.mp hpart, (List.mem_tails _ _).mp htail⟩
  · intro ⟨tail, hpart, htail⟩
    exact ⟨tail, (List.mem_tails _ _).mpr htail, List.isPrefixOf_iff_prefix.mpr hpart⟩

/-- **What is accepted.** -/
def Accepted (template : String) (allowed : List String) : Prop :=
  (∀ marker ∈ unsafeSyntax, ¬ marker <:+: template.toList) ∧
    BracesBelong allowed openBrace template.toList ∧ BracesBelong allowed closeBrace template.toList

/-- A template as literals and well-formed tokens of allowed variables. -/
structure Substitution (template : String) (allowed : List String) where
  pieces : List (Piece Char String)
  source : Scanning.text pieces = template.toList
  tokens : ∀ part name, .hit part name ∈ pieces → IsToken part name ∧ name ∈ allowed

namespace Substitution

variable {template : String} (σ : Substitution template allowed)

/-- The variables the template names. -/
def names : List String := readings σ.pieces

/-- The characters of the template outside its tokens. -/
def literals : List Char := Scanning.kept σ.pieces

/-- The literals in their places, and for each token what `replacement` makes of its value. -/
def fill (values : String → Option String) (htmlContent : Bool) : String :=
  String.ofList (σ.pieces.flatMap fun
    | .plain c => [c]
    | .hit _ name => replacement values htmlContent name)

/-- The values of other variables do not matter. -/
theorem fill_congr {values values' : String → Option String} {htmlContent : Bool}
    (h : ∀ name ∈ σ.names, values name = values' name) :
    σ.fill values htmlContent = σ.fill values' htmlContent := by
  refine congrArg String.ofList (List.flatMap_congr fun piece hpiece => ?_)
  cases piece with
  | plain c => rfl
  | hit part name =>
    have hname := h name (mem_readings.mpr ⟨part, hpiece⟩)
    simp only [replacement, hname]

end Substitution

/-- Angle brackets and quotes. -/
def isMarkup (c : Char) : Bool := ['<', '>', '\x22', Char.ofNat 0x27].contains c

/-- What is escaped has none of them. -/
theorem escapeChar_plain (c : Char) : ∀ d ∈ escapeChar c, isMarkup d = false := by
  rw [escapeChar]
  split
  · exact none_of_all (by decide)
  split
  · exact none_of_all (by decide)
  split
  · exact none_of_all (by decide)
  split
  · exact none_of_all (by decide)
  split
  · exact none_of_all (by decide)
  rename_i hless hgreater hdouble hsingle
  intro d hd
  obtain rfl := List.mem_singleton.mp hd
  simp [isMarkup, hless, hgreater, hdouble, hsingle]

theorem replacement_plain (values : String → Option String) (name : String) :
    ∀ d ∈ replacement values true name, isMarkup d = false := by
  intro d hd
  obtain ⟨c, -, hc⟩ := List.mem_flatMap.mp hd
  exact escapeChar_plain c d hc

/-- **The markup of what is rendered as HTML is the markup of the literals.** -/
theorem Substitution.markup {template : String} (σ : Substitution template allowed)
    (values : String → Option String) :
    (σ.fill values true).toList.filter isMarkup = σ.literals.filter isMarkup := by
  rw [fill, String.toList_ofList, literals]
  generalize σ.pieces = pieces
  induction pieces with
  | nil => rfl
  | cons piece pieces ih =>
    rw [List.flatMap_cons, List.filter_append, ih]
    cases piece with
    | plain c => rw [kept_plain, ← List.filter_append]; rfl
    | hit part name =>
      rw [kept_hit, List.filter_eq_nil_iff.mpr, List.nil_append]
      intro d hd
      rw [replacement_plain values name d hd]
      exact Bool.false_ne_true

theorem noTriples_of_safe (hsafe : ∀ marker ∈ unsafeSyntax, ¬ marker <:+: s) : NoTriples s :=
  ⟨hsafe _ (by simp [unsafeSyntax]), hsafe _ (by simp [unsafeSyntax])⟩

end Helpdesk.Notifications
