/-
  File:      Helpdesk/Lib/Outline.lean
  Subject:   Outlines: the chain of headings above a place.

  Headings with a level are read one after the other. The outline of a place starts from
  the heading before it and goes on to the nearest one before of a smaller level. A path
  that is cut at each heading to the number of its level and extended by it is the
  outline exactly where the levels of the chain count its headings wherever a heading is
  left out. Headings are listed from the nearest one back.

  * `above_levels`: along a chain the levels fall;
  * `length_above_le`: a chain is no longer than the level or the path allow;
  * `path_eq_outline_iff`: the path is the outline exactly where the headings are placed.
-/
import Mathlib.Data.List.Basic
import Mathlib.Data.List.Pairwise
import Mathlib.Tactic.Common

namespace Helpdesk

structure Heading (τ : Type) where
  level : Nat
  title : τ
  deriving DecidableEq, Repr

namespace Outline

variable {τ : Type} {b : Nat} {h : Heading τ} {before headings : List (Heading τ)}

/-! ## 1. The chain and the path -/

/-- From the nearest heading of a level below `b` on, the nearest one before of a smaller
    level, and so on. -/
def above : Nat → List (Heading τ) → List (Heading τ)
  | _, [] => []
  | b, h :: before => if h.level < b then h :: above h.level before else above b before

/-- **The outline** at the end of the headings. -/
def outline : List (Heading τ) → List (Heading τ)
  | [] => []
  | h :: before => h :: above h.level before

/-- `path[: level - 1] + [title]`: for level `0` the bound is `-1`. -/
def enter (path : List τ) (level : Nat) (title : τ) : List τ :=
  (match level with
    | 0 => path.dropLast
    | n + 1 => path.take n) ++ [title]

/-- The path after the headings, from the outermost one. -/
def path : List (Heading τ) → List τ
  | [] => []
  | h :: before => enter (path before) h.level h.title

/-- The chain below `b` leaves no heading out, or has one of every level where it does:
    a heading of the chain either comes right after the one above it, or has as many above
    it as levels are below its own. -/
def PlacedBelow : Nat → List (Heading τ) → Prop
  | _, [] => True
  | b, h :: before =>
      if h.level < b then PlacedBelow h.level before else (above b before).length + 1 = b

/-- **The headings above the end are placed.** -/
def Placed : List (Heading τ) → Prop
  | [] => True
  | h :: before => PlacedBelow h.level before

instance decidablePlacedBelow :
    ∀ (b : Nat) (headings : List (Heading τ)), Decidable (PlacedBelow b headings)
  | _, [] => inferInstanceAs (Decidable True)
  | b, h :: before =>
      have := decidablePlacedBelow h.level before
      inferInstanceAs (Decidable (if h.level < b then PlacedBelow h.level before
        else (above b before).length + 1 = b))

instance : ∀ headings : List (Heading τ), Decidable (Placed headings)
  | [] => inferInstanceAs (Decidable True)
  | h :: before => inferInstanceAs (Decidable (PlacedBelow h.level before))

theorem above_cons_of_lt (hlt : h.level < b) : above b (h :: before) = h :: above h.level before :=
  if_pos hlt

theorem above_cons_of_le (hle : b ≤ h.level) : above b (h :: before) = above b before :=
  if_neg (Nat.not_lt.mpr hle)

theorem enter_of_pos {path : List τ} {level : Nat} {title : τ} (hpos : 1 ≤ level) :
    enter path level title = path.take (level - 1) ++ [title] := by
  obtain ⟨n, rfl⟩ := Nat.exists_eq_add_of_le' hpos
  rfl

/-! ## 2. Along a chain -/

theorem mem_above (hmem : h ∈ above b headings) : h ∈ headings ∧ h.level < b := by
  induction headings generalizing b with
  | nil => cases hmem
  | cons g before ih =>
      by_cases hlt : g.level < b
      · rw [above_cons_of_lt hlt] at hmem
        rcases List.mem_cons.mp hmem with rfl | hmem
        · exact ⟨List.mem_cons_self, hlt⟩
        · obtain ⟨hin, hlevel⟩ := ih hmem
          exact ⟨List.mem_cons_of_mem g hin, Nat.lt_trans hlevel hlt⟩
      · rw [above_cons_of_le (Nat.not_lt.mp hlt)] at hmem
        obtain ⟨hin, hlevel⟩ := ih hmem
        exact ⟨List.mem_cons_of_mem g hin, hlevel⟩

theorem above_levels (b : Nat) (headings : List (Heading τ)) :
    (above b headings).Pairwise (fun near far => far.level < near.level) := by
  induction headings generalizing b with
  | nil => exact .nil
  | cons g before ih =>
      by_cases hlt : g.level < b
      · rw [above_cons_of_lt hlt]
        exact .cons (fun far hfar => (mem_above hfar).2) (ih g.level)
      · rw [above_cons_of_le (Nat.not_lt.mp hlt)]
        exact ih b

theorem mem_outline (hmem : h ∈ outline headings) : h ∈ headings := by
  cases headings with
  | nil => cases hmem
  | cons g before =>
      rcases List.mem_cons.mp hmem with rfl | hmem
      · exact List.mem_cons_self
      · exact List.mem_cons_of_mem g (mem_above hmem).1

/-- No level occurs twice in an outline. -/
theorem outline_levels (headings : List (Heading τ)) :
    (outline headings).Pairwise (fun near far => far.level < near.level) := by
  cases headings with
  | nil => exact .nil
  | cons h before => exact .cons (fun far hfar => (mem_above hfar).2) (above_levels _ _)

/-! ## 3. The length of a chain -/

section

variable (hlevels : ∀ g ∈ headings, 1 ≤ g.level)

include hlevels in
/-- A chain has no more headings than levels are below `b`, nor more than the path. -/
theorem length_above_le (hb : 1 ≤ b) :
    (above b headings).length + 1 ≤ b ∧ (above b headings).length ≤ (path headings).length := by
  induction headings generalizing b with
  | nil => exact ⟨by simpa [above] using hb, Nat.zero_le _⟩
  | cons g before ih =>
      have hg : 1 ≤ g.level := hlevels g List.mem_cons_self
      have hbefore : ∀ g ∈ before, 1 ≤ g.level := fun x hx =>
        hlevels x (List.mem_cons_of_mem g hx)
      have hpath : (path (g :: before)).length = min (g.level - 1) (path before).length + 1 := by
        rw [path, enter_of_pos hg, List.length_append, List.length_take]
        rfl
      by_cases hlt : g.level < b
      · obtain ⟨hlevel, hlong⟩ := ih hbefore hg
        rw [above_cons_of_lt hlt, List.length_cons, hpath]
        omega
      · obtain ⟨hlevel, hlong⟩ := ih hbefore hb
        rw [above_cons_of_le (Nat.not_lt.mp hlt), hpath]
        omega

include hlevels in
/-- The cut path and the chain are equally long exactly where the headings are placed. -/
theorem length_take_eq_iff (hb : 1 ≤ b) :
    ((path headings).take (b - 1)).length = (above b headings).length ↔
      PlacedBelow b headings := by
  induction headings generalizing b with
  | nil => simp [path, above, PlacedBelow]
  | cons g before ih =>
      have hg : 1 ≤ g.level := hlevels g List.mem_cons_self
      have hbefore : ∀ g ∈ before, 1 ≤ g.level := fun x hx =>
        hlevels x (List.mem_cons_of_mem g hx)
      rw [path, enter_of_pos hg, List.length_take, List.length_append, List.length_singleton]
      by_cases hlt : g.level < b
      · have hstep := ih hbefore hg
        rw [List.length_take] at hstep
        rw [above_cons_of_lt hlt, List.length_cons, PlacedBelow, if_pos hlt, ← hstep,
          List.length_take]
        omega
      · -- the heading is left out of the chain but not of the path
        obtain ⟨hlevel, hlong⟩ := length_above_le hbefore hb
        rw [above_cons_of_le (Nat.not_lt.mp hlt), PlacedBelow, if_neg hlt, List.length_take]
        omega

/-! ## 4. The path and the outline -/

include hlevels in
theorem take_path_of_placed (hb : 1 ≤ b) (hplaced : PlacedBelow b headings) :
    (path headings).take (b - 1) = ((above b headings).map (·.title)).reverse := by
  induction headings generalizing b with
  | nil => simp [path, above]
  | cons g before ih =>
      have hg : 1 ≤ g.level := hlevels g List.mem_cons_self
      have hbefore : ∀ g ∈ before, 1 ≤ g.level := fun x hx =>
        hlevels x (List.mem_cons_of_mem g hx)
      by_cases hlt : g.level < b
      · rw [PlacedBelow, if_pos hlt] at hplaced
        rw [path, enter_of_pos hg, ih hbefore hg hplaced, above_cons_of_lt hlt, List.map_cons,
          List.reverse_cons]
        refine List.take_of_length_le ?_
        have hlong := (length_above_le hbefore hg).1
        simp only [List.length_append, List.length_reverse, List.length_map, List.length_singleton]
        omega
      · rw [PlacedBelow, if_neg hlt] at hplaced
        have hlong := (length_above_le hbefore hb).2
        -- the path before is cut below the heading that is left out
        have hcut : b - 1 ≤ ((path before).take (g.level - 1)).length := by
          rw [List.length_take]
          omega
        have hshort : ((path before).take (b - 1)).length = (above b before).length := by
          rw [List.length_take]
          omega
        rw [path, enter_of_pos hg, List.take_append_of_le_length hcut, List.take_take,
          Nat.min_eq_left (by omega), above_cons_of_le (Nat.not_lt.mp hlt)]
        exact ih hbefore hb ((length_take_eq_iff hbefore hb).mp hshort)

include hlevels in
theorem path_of_placed (hplaced : Placed headings) :
    path headings = ((outline headings).map (·.title)).reverse := by
  cases headings with
  | nil => rfl
  | cons h before =>
      have hh : 1 ≤ h.level := hlevels h List.mem_cons_self
      have hbefore : ∀ g ∈ before, 1 ≤ g.level := fun x hx =>
        hlevels x (List.mem_cons_of_mem h hx)
      rw [path, enter_of_pos hh, take_path_of_placed hbefore hh hplaced, outline, List.map_cons,
        List.reverse_cons]

include hlevels in
/-- **The path is the outline exactly where the headings are placed.** -/
theorem path_eq_outline_iff :
    path headings = ((outline headings).map (·.title)).reverse ↔ Placed headings := by
  refine ⟨fun heq => ?_, path_of_placed hlevels⟩
  cases headings with
  | nil => trivial
  | cons h before =>
      have hh : 1 ≤ h.level := hlevels h List.mem_cons_self
      have hbefore : ∀ g ∈ before, 1 ≤ g.level := fun x hx =>
        hlevels x (List.mem_cons_of_mem h hx)
      have hlength := congrArg List.length heq
      rw [path, enter_of_pos hh, outline] at hlength
      simp only [List.length_append, List.length_reverse, List.length_map, List.length_cons,
        List.length_nil] at hlength
      exact (length_take_eq_iff hbefore hh).mp (by omega)

end

end Outline

end Helpdesk
