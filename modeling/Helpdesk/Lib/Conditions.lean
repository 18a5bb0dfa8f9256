/-
  File:      Helpdesk/Lib/Conditions.lean
  Subject:   Conditions in SQL's three-valued logic, as text: atoms, AND, OR and
             parentheses.

  A condition is a list of tokens. It is evaluated from left to right with a stack of
  frames, one for each open parenthesis: AND binds tighter than OR, so a frame holds
  the disjunction of the conjunctions that are complete and the conjunction that is
  not. A text that is no condition has no value.

  * `Truth`: true, false or unknown, with `and3` and `or3`;
  * `evaluate`: the value of a text, `none` where it is not a condition;
  * `Denotes`: a text has a value wherever a condition may stand;
  * **`denotes_joined`**: conditions in parentheses, joined by one connective, have
    the value of that connective on theirs.
-/
import Mathlib.Data.List.Basic
import Mathlib.Tactic.Common

namespace Helpdesk.Conditions

/-! ## 1. Three values -/

/-- `none` is NULL. -/
abbrev Truth := Option Bool

def and3 : Truth → Truth → Truth
  | some true, some true => some true
  | some false, _ => some false
  | _, some false => some false
  | _, _ => none

def or3 : Truth → Truth → Truth
  | some false, some false => some false
  | some true, _ => some true
  | _, some true => some true
  | _, _ => none

theorem and3_eq_true {a b : Truth} : and3 a b = some true ↔ a = some true ∧ b = some true := by
  rcases a with _ | _ | _ <;> rcases b with _ | _ | _ <;> simp [and3]

theorem or3_eq_true {a b : Truth} : or3 a b = some true ↔ a = some true ∨ b = some true := by
  rcases a with _ | _ | _ <;> rcases b with _ | _ | _ <;> simp [or3]

@[simp] theorem or3_false (a : Truth) : or3 (some false) a = a := by
  rcases a with _ | _ | _ <;> rfl

/-- `=`: unknown when a side is NULL. -/
def eq3 {α : Type} [DecidableEq α] (a b : Option α) : Truth :=
  match a, b with
  | some a, some b => some (a = b)
  | _, _ => none

/-- `= ANY (array)`, for an array without NULLs. -/
def any3 {α : Type} [DecidableEq α] (a : Option α) (array : Option (List α)) : Truth :=
  match a, array with
  | some a, some array => some (decide (a ∈ array))
  | _, _ => none

theorem eq3_eq_true {α : Type} [DecidableEq α] {a : Option α} {b : α} :
    eq3 a (some b) = some true ↔ a = some b := by
  cases a <;> simp [eq3]

theorem any3_eq_true {α : Type} [DecidableEq α] {a : Option α} {array : List α} :
    any3 a (some array) = some true ↔ ∃ b ∈ array, a = some b := by
  cases a with
  | none => simp [any3]
  | some a => simp [any3]

/-! ## 2. Texts -/

inductive Connective where
  | and | or
  deriving DecidableEq, Repr

inductive Token (α : Type) where
  | atom (a : α)
  | connective (c : Connective)
  | lparen
  | rparen
  deriving DecidableEq, Repr

variable {α : Type}

/-- What is between two parentheses up to the current token. -/
structure Frame where
  disjunction : Truth
  conjunction : Truth
  deriving DecidableEq, Repr

def Frame.fresh : Frame := ⟨some false, some true⟩

def Frame.value (f : Frame) : Truth := or3 f.disjunction f.conjunction

/-- An operand of the current conjunction. -/
def Frame.operand (f : Frame) (t : Truth) : Frame := { f with conjunction := and3 f.conjunction t }

/-- A connective: AND goes on with the conjunction, OR completes it. -/
def Frame.join (f : Frame) : Connective → Frame
  | .and => f
  | .or => ⟨or3 f.disjunction f.conjunction, some true⟩

/-- The frames, the innermost first, and whether an operand has to come next. -/
structure Reading where
  frames : List Frame
  operand : Bool
  deriving DecidableEq, Repr

/-- One token. -/
def Reading.step (eval : α → Truth) (r : Reading) (token : Token α) : Option Reading :=
  match r.operand, token, r.frames with
  | true, .atom a, f :: frames => some ⟨f.operand (eval a) :: frames, false⟩
  | true, .lparen, frames => some ⟨.fresh :: frames, true⟩
  | false, .connective c, f :: frames => some ⟨f.join c :: frames, true⟩
  | false, .rparen, f :: outer :: frames => some ⟨outer.operand f.value :: frames, false⟩
  | _, _, _ => none

def Reading.steps (eval : α → Truth) (r : Reading) (text : List (Token α)) : Option Reading :=
  text.foldlM (Reading.step eval) r

/-- The value of a text. -/
def evaluate (eval : α → Truth) (text : List (Token α)) : Option Truth :=
  match Reading.steps eval ⟨[.fresh], true⟩ text with
  | some ⟨[f], false⟩ => some f.value
  | _ => none

/-! ## 3. Conditions in conditions -/

theorem steps_append {eval : α → Truth} {r : Reading} (text text' : List (Token α)) :
    r.steps eval (text ++ text') = (r.steps eval text).bind fun r' => r'.steps eval text' := by
  simp [Reading.steps, List.foldlM_append]

theorem steps_cons {eval : α → Truth} {r : Reading} (token : Token α) (text : List (Token α)) :
    r.steps eval (token :: text) = (r.step eval token).bind fun r' => r'.steps eval text := by
  simp [Reading.steps]

/-- **The text is a condition with this value**, in whatever parentheses it stands. -/
def Denotes (eval : α → Truth) (text : List (Token α)) (t : Truth) : Prop :=
  ∀ frames, ∃ f : Frame, Reading.steps eval ⟨.fresh :: frames, true⟩ text = some ⟨f :: frames, false⟩ ∧
    f.value = t

theorem Denotes.evaluate {eval : α → Truth} {text : List (Token α)} {t : Truth}
    (h : Denotes eval text t) : Conditions.evaluate eval text = some t := by
  obtain ⟨f, hsteps, hvalue⟩ := h []
  unfold Conditions.evaluate
  rw [hsteps]
  exact congrArg some hvalue

theorem and3_true (a : Truth) : and3 (some true) a = a := by
  rcases a with _ | _ | _ <;> rfl

theorem denotes_atom {eval : α → Truth} (a : α) : Denotes eval [.atom a] (eval a) := by
  intro frames
  refine ⟨_, rfl, ?_⟩
  show or3 (some false) (and3 (some true) (eval a)) = eval a
  rw [or3_false, and3_true]

/-- A condition in parentheses is an operand. -/
def parenthesized (text : List (Token α)) : List (Token α) := .lparen :: text ++ [.rparen]

theorem steps_parenthesized {eval : α → Truth} {text : List (Token α)} {t : Truth}
    (h : Denotes eval text t) (f : Frame) (frames : List Frame) :
    Reading.steps eval ⟨f :: frames, true⟩ (parenthesized text) =
      some ⟨f.operand t :: frames, false⟩ := by
  obtain ⟨inner, hsteps, rfl⟩ := h (f :: frames)
  unfold parenthesized
  rw [List.cons_append, steps_cons]
  show Reading.steps eval ⟨.fresh :: f :: frames, true⟩ (text ++ [.rparen]) = _
  rw [steps_append, hsteps]
  rfl

/-- `operator.join(f"({part})" for part in parts)` -/
def joined (c : Connective) : List (List (Token α)) → List (Token α)
  | [] => []
  | [part] => parenthesized part
  | part :: rest => parenthesized part ++ .connective c :: joined c rest

/-- The frame after conditions that are joined. -/
def Frame.operands (c : Connective) (f : Frame) : List Truth → Frame
  | [] => f
  | [t] => f.operand t
  | t :: rest => ((f.operand t).join c).operands c rest

theorem steps_joined {eval : α → Truth} (c : Connective) {parts : List (List (Token α))}
    {ts : List Truth} (h : List.Forall₂ (Denotes eval) parts ts) (hne : parts ≠ []) (f : Frame)
    (frames : List Frame) :
    Reading.steps eval ⟨f :: frames, true⟩ (joined c parts) =
      some ⟨f.operands c ts :: frames, false⟩ := by
  induction h generalizing f with
  | nil => exact absurd rfl hne
  | @cons part t parts ts hpart hrest ih =>
      cases hrest with
      | nil => exact steps_parenthesized hpart f frames
      | cons hpart' hrest' =>
          show Reading.steps eval _ (parenthesized part ++ .connective c :: joined c (_ :: _)) = _
          rw [steps_append, steps_parenthesized hpart, Option.bind_some, steps_cons]
          exact ih (List.cons_ne_nil _ _) _

/-- A conjunction that goes on in a frame. -/
theorem operands_and (f : Frame) (ts : List Truth) :
    (f.operands .and ts).value = some true ↔
      f.disjunction = some true ∨ f.conjunction = some true ∧ ∀ t ∈ ts, t = some true := by
  induction ts generalizing f with
  | nil => simp [Frame.operands, Frame.value, or3_eq_true]
  | cons t rest ih =>
      have hone : ∀ f : Frame, ((f.operand t).operands .and rest).value = some true ↔
          f.disjunction = some true ∨ f.conjunction = some true ∧ ∀ t' ∈ t :: rest, t' = some true := by
        intro f
        rw [ih]
        simp only [Frame.operand, and3_eq_true, List.forall_mem_cons, and_assoc]
      cases rest with
      | nil => exact hone f
      | cons t' rest => exact hone f

/-- A disjunction that goes on in a frame whose conjunction is still empty. -/
theorem operands_or (d : Truth) {ts : List Truth} (hne : ts ≠ []) :
    ((Frame.mk d (some true)).operands .or ts).value = some true ↔
      d = some true ∨ ∃ t ∈ ts, t = some true := by
  induction ts generalizing d with
  | nil => exact absurd rfl hne
  | cons t rest ih =>
      cases rest with
      | nil =>
          show or3 d (and3 (some true) t) = some true ↔ _
          rw [and3_true, or3_eq_true]
          simp only [List.mem_singleton, exists_eq_left]
      | cons t' rest =>
          show ((Frame.mk (or3 d (and3 (some true) t)) (some true)).operands .or (t' :: rest)).value =
            some true ↔ _
          rw [ih _ (List.cons_ne_nil _ _), or3_eq_true, and3_true]
          simp only [List.exists_mem_cons_iff, or_assoc]

/-- **The value of joined conditions.** -/
theorem denotes_joined {eval : α → Truth} (c : Connective) {parts : List (List (Token α))}
    {ts : List Truth} (h : List.Forall₂ (Denotes eval) parts ts) (hne : parts ≠ []) :
    ∃ t, Denotes eval (joined c parts) t ∧
      (t = some true ↔ match c with
        | .and => ∀ t ∈ ts, t = some true
        | .or => ∃ t ∈ ts, t = some true) := by
  refine ⟨(Frame.fresh.operands c ts).value, fun frames => ⟨_, steps_joined c h hne _ frames, rfl⟩, ?_⟩
  cases c with
  | and => simp [operands_and, Frame.fresh]
  | or =>
      have hts : ts ≠ [] := by
        rintro rfl
        cases h
        exact hne rfl
      have hor := operands_or (some false) hts
      simpa [Frame.fresh] using hor

end Helpdesk.Conditions
