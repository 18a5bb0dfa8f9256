/-
  File:      Helpdesk/Lib/Grouping.lean
  Subject:   Grouping a list from left to right.

  Each element joins the last group if it fits it, and opens a new one otherwise.
  The groups are told apart by what holds of them alone: they are the list in its
  order, inside a group every element fits what comes before it, and the head of a
  group does not fit the group before.

  * `isGrouping_group`: the algorithm finds such groups;
  * `IsGrouping.eq_group`: there are no others;
  * `group_append_of_opens`, `group_cons`: an element that joins no group splits the list,
    and the first group is the head and what joins it;
  * `toChunks_flatten`: runs of so many elements are the list in its order.
-/
import Mathlib.Data.List.Basic
import Mathlib.Data.List.Induction
import Mathlib.Tactic.Common

namespace Helpdesk

variable {α : Type} {fits : List α → α → Bool} {x : α} {xs : List α} {gs : List (List α)}

/-- One element after the groups there are. -/
def place (fits : List α → α → Bool) (gs : List (List α)) (x : α) : List (List α) :=
  match gs.getLast? with
  | some last => if fits last x then gs.dropLast ++ [last ++ [x]] else gs ++ [[x]]
  | none => gs ++ [[x]]

def group (fits : List α → α → Bool) (xs : List α) : List (List α) := xs.foldl (place fits) []

/-- **The groups of a list.** -/
structure IsGrouping (fits : List α → α → Bool) (xs : List α) (gs : List (List α)) : Prop where
  flatten : gs.flatten = xs
  nonempty : ∀ g ∈ gs, g ≠ []
  inside : ∀ g ∈ gs, ∀ pre x post, g = pre ++ x :: post → pre ≠ [] → fits pre x = true
  between : ∀ front g x rest back, gs = front ++ g :: (x :: rest) :: back → fits g x = false

/-! ## 1. The last group -/

theorem place_nil : place fits [] x = [[x]] := rfl

theorem place_append (last : List α) :
    place fits (gs ++ [last]) x =
      if fits last x then gs ++ [last ++ [x]] else gs ++ [last] ++ [[x]] := by
  unfold place
  rw [List.getLast?_concat]
  dsimp only
  rw [List.dropLast_concat]

theorem group_append : group fits (xs ++ [x]) = place fits (group fits xs) x := by
  rw [group, List.foldl_append]
  rfl

/-- Groups without their last one. -/
theorem IsGrouping.front {last : List α} (h : IsGrouping fits xs (gs ++ [last])) :
    IsGrouping fits gs.flatten gs where
  flatten := rfl
  nonempty := fun g hg => h.nonempty g (List.mem_append_left _ hg)
  inside := fun g hg => h.inside g (List.mem_append_left _ hg)
  between := by
    intro front g x rest back hgs
    refine h.between front g x rest (back ++ [last]) ?_
    rw [hgs, List.append_assoc]
    rfl

/-- A group more, whose head does not fit the group before. -/
theorem IsGrouping.snoc {last : List α} (h : IsGrouping fits xs gs) (hlast : last ≠ [])
    (hinside : ∀ pre x post, last = pre ++ x :: post → pre ≠ [] → fits pre x = true)
    (hbetween : ∀ front g x rest, gs = front ++ [g] → last = x :: rest → fits g x = false) :
    IsGrouping fits (xs ++ last) (gs ++ [last]) where
  flatten := by rw [List.flatten_append, h.flatten, List.flatten_singleton]
  nonempty := by
    intro g hg
    rcases List.mem_append.mp hg with hin | hin
    · exact h.nonempty g hin
    · rw [List.mem_singleton.mp hin]
      exact hlast
  inside := by
    intro g hg
    rcases List.mem_append.mp hg with hin | hin
    · exact h.inside g hin
    · rw [List.mem_singleton.mp hin]
      exact hinside
  between := by
    intro front g x rest back hgs
    rcases List.eq_nil_or_concat' back with rfl | ⟨back', b, rfl⟩
    · have hsplit : gs ++ [last] = (front ++ [g]) ++ [x :: rest] := by
        rw [hgs, List.append_assoc]
        rfl
      obtain ⟨hfront, hback⟩ := List.append_inj' hsplit rfl
      exact hbetween front g x rest hfront (List.singleton_inj.mp hback)
    · have hsplit : gs ++ [last] = (front ++ g :: (x :: rest) :: back') ++ [b] := by
        rw [hgs]
        simp
      obtain ⟨hfront, _⟩ := List.append_inj' hsplit rfl
      exact h.between front g x rest back' hfront

theorem IsGrouping.nil : IsGrouping fits [] [] where
  flatten := rfl
  nonempty := fun g hg => absurd hg List.not_mem_nil
  inside := fun g hg => absurd hg List.not_mem_nil
  between := fun front g x rest back h => absurd h (by simp)

/-- One element that opens a group. -/
theorem IsGrouping.open (h : IsGrouping fits xs gs)
    (hbetween : ∀ front g, gs = front ++ [g] → fits g x = false) :
    IsGrouping fits (xs ++ [x]) (gs ++ [[x]]) := by
  refine h.snoc (List.cons_ne_nil x []) ?_ ?_
  · intro pre y post hsplit hpre
    rcases pre with _ | ⟨z, pre⟩
    · exact absurd rfl hpre
    · simp at hsplit
  · intro front g y rest hgs hy
    obtain ⟨rfl, _⟩ := List.cons.inj hy
    exact hbetween front g hgs

/-- One element that joins the last group. -/
theorem IsGrouping.join {last : List α} (h : IsGrouping fits xs (gs ++ [last]))
    (hfits : fits last x = true) : IsGrouping fits (xs ++ [x]) (gs ++ [last ++ [x]]) := by
  have hlast : last ≠ [] := h.nonempty last (by simp)
  have hxs : gs.flatten ++ (last ++ [x]) = xs ++ [x] := by
    rw [← h.flatten]
    simp
  rw [← hxs]
  refine h.front.snoc (by simp) ?_ ?_
  · intro pre y post hsplit hpre
    rcases List.eq_nil_or_concat' post with rfl | ⟨post', z, rfl⟩
    · obtain ⟨rfl, hy⟩ := List.append_inj' hsplit rfl
      obtain rfl := List.singleton_inj.mp hy
      exact hfits
    · have hsplit' : last ++ [x] = (pre ++ y :: post') ++ [z] := by
        rw [hsplit]
        simp
      obtain ⟨hold, _⟩ := List.append_inj' hsplit' rfl
      exact h.inside last (by simp) pre y post' hold hpre
  · intro front g y rest hgs hy
    obtain ⟨y', rest', rfl⟩ := List.exists_cons_of_ne_nil hlast
    obtain ⟨rfl, _⟩ := List.cons.inj hy
    refine h.between front g y' rest' [] ?_
    rw [hgs, List.append_assoc]
    rfl

/-! ## 2. The algorithm and its groups -/

theorem isGrouping_group (xs : List α) : IsGrouping fits xs (group fits xs) := by
  induction xs using List.reverseRecOn with
  | nil => exact .nil
  | append_singleton xs x ih =>
      rw [group_append]
      rcases List.eq_nil_or_concat' (group fits xs) with hnil | ⟨front, last, hlast⟩
      · rw [hnil] at ih ⊢
        exact ih.open fun front g h => absurd h (by simp)
      · rw [hlast] at ih ⊢
        rw [place_append]
        by_cases hfits : fits last x = true
        · rw [if_pos hfits]
          exact ih.join hfits
        · rw [if_neg hfits]
          refine ih.open fun front' g h => ?_
          obtain ⟨_, hg⟩ := List.append_inj' h rfl
          obtain rfl := List.singleton_inj.mp hg
          exact Bool.eq_false_iff.mpr hfits

/-- **There are no other groups.** -/
theorem IsGrouping.eq_group (h : IsGrouping fits xs gs) : gs = group fits xs := by
  induction xs using List.reverseRecOn generalizing gs with
  | nil =>
      rcases gs with _ | ⟨g, gs⟩
      · rfl
      · have hg := (List.append_eq_nil_iff.mp h.flatten).1
        exact absurd hg (h.nonempty g List.mem_cons_self)
  | append_singleton xs x ih =>
      rcases List.eq_nil_or_concat' gs with rfl | ⟨front, last, rfl⟩
      · exact absurd h.flatten (by simp)
      · rcases List.eq_nil_or_concat' last with rfl | ⟨init, y, rfl⟩
        · exact absurd rfl (h.nonempty [] (by simp))
        · have hsplit : (front.flatten ++ init) ++ [y] = xs ++ [x] := by
            rw [← h.flatten]
            simp
          obtain ⟨hxs, hy⟩ := List.append_inj' hsplit rfl
          obtain rfl := List.singleton_inj.mp hy
          rw [group_append]
          rcases List.eq_nil_or_concat' init with rfl | ⟨init', z, rfl⟩
          · rw [List.append_nil] at hxs
            have hfront : IsGrouping fits xs front := hxs ▸ h.front
            rw [← ih hfront]
            rcases List.eq_nil_or_concat' front with rfl | ⟨front', g, rfl⟩
            · rfl
            · have hbreak : fits g y = false := by
                refine h.between front' g y [] [] ?_
                simp
              rw [place_append, hbreak]
              rfl
          · have hinit : init' ++ [z] ≠ [] := by simp
            have hold : IsGrouping fits xs (front ++ [init' ++ [z]]) := by
              rw [← hxs]
              refine h.front.snoc hinit ?_ ?_
              · intro pre w post hw hpre
                have hin : init' ++ [z] ++ [y] ∈ front ++ [init' ++ [z] ++ [y]] := by simp
                refine h.inside _ hin pre w (post ++ [y]) ?_ hpre
                rw [hw]
                simp
              · intro front' g w rest hfront hw
                refine h.between front' g w (rest ++ [y]) [] ?_
                rw [hfront, hw]
                simp
            have hfits : fits (init' ++ [z]) y = true :=
              h.inside _ (by simp) (init' ++ [z]) y [] rfl hinit
            rw [← ih hold, place_append, if_pos hfits]

theorem isGrouping_iff : IsGrouping fits xs gs ↔ gs = group fits xs := by
  constructor
  · exact IsGrouping.eq_group
  · rintro rfl
    exact isGrouping_group xs

/-! ## 3. The groups from an element on -/

/-- A round changes the last group only. -/
theorem foldl_place_append (xs : List α) {hs : List (List α)} (hne : hs ≠ []) :
    xs.foldl (place fits) (gs ++ hs) = gs ++ xs.foldl (place fits) hs := by
  induction xs generalizing hs with
  | nil => rfl
  | cons x xs ih =>
      obtain ⟨front, last, rfl⟩ := (List.eq_nil_or_concat' hs).resolve_left hne
      rw [List.foldl_cons, List.foldl_cons, ← List.append_assoc, place_append, place_append]
      split
      · have hrest := @ih (front ++ [last ++ [x]]) (by simp)
        rwa [← List.append_assoc] at hrest
      · have hrest := @ih (front ++ [last] ++ [[x]]) (by simp)
        rwa [← List.append_assoc, ← List.append_assoc] at hrest

/-- **An element that joins no group splits the list.** -/
theorem group_append_of_opens (hopens : ∀ g, fits g x = false) (ys : List α) :
    group fits (xs ++ x :: ys) = group fits xs ++ group fits (x :: ys) := by
  have hplace : place fits (group fits xs) x = group fits xs ++ [[x]] := by
    unfold place
    split
    · next last _ => rw [hopens last]; rfl
    · rfl
  have hsplit : group fits (xs ++ x :: ys) = ys.foldl (place fits) (group fits xs ++ [[x]]) := by
    rw [group, List.foldl_append, List.foldl_cons]
    exact congrArg (ys.foldl (place fits)) hplace
  rw [hsplit, foldl_place_append ys (List.cons_ne_nil _ _)]
  rfl

/-- What joins a group at the head of a list. -/
def joined (fits : List α → α → Bool) : List α → List α → List α
  | _, [] => []
  | g, x :: xs => if fits g x then x :: joined fits (g ++ [x]) xs else []

/-- **The first group** is the head of the list and what joins it. -/
theorem foldl_place_singleton (g : List α) (ys : List α) :
    ∃ rest, ys.foldl (place fits) [g] = (g ++ joined fits g ys) :: rest := by
  induction ys generalizing g with
  | nil => exact ⟨[], by rw [joined, List.append_nil]; rfl⟩
  | cons y ys ih =>
      have hplace : place fits ([] ++ [g]) y = if fits g y then [g ++ [y]] else [g] ++ [[y]] :=
        place_append g
      rw [List.nil_append] at hplace
      rw [List.foldl_cons, hplace, joined]
      split
      · obtain ⟨rest, hrest⟩ := ih (g ++ [y])
        exact ⟨rest, by rw [hrest, List.append_assoc]; rfl⟩
      · rw [foldl_place_append ys (List.cons_ne_nil _ _), List.append_nil]
        exact ⟨_, rfl⟩

theorem group_cons (fits : List α → α → Bool) (x : α) (ys : List α) :
    ∃ rest, group fits (x :: ys) = (x :: joined fits [x] ys) :: rest :=
  foldl_place_singleton [x] ys

/-! ## 4. Runs of one length -/

/-- **Runs of so many elements** are the list in its order. -/
theorem toChunks_go_flatten {α : Type} (n : Nat) :
    ∀ (xs : List α) (run : Array α) (runs : Array (List α)),
      (List.toChunks.go n xs run runs).flatten = runs.toList.flatten ++ run.toList ++ xs
  | [], run, runs => by simp [List.toChunks.go]
  | x :: xs, run, runs => by
      rw [List.toChunks.go]
      split
      · rw [toChunks_go_flatten n xs]
        simp
      · rw [toChunks_go_flatten n xs]
        simp

theorem toChunks_flatten {α : Type} (xs : List α) (n : Nat) : (xs.toChunks n).flatten = xs := by
  cases xs with
  | nil => cases n <;> rfl
  | cons x xs =>
      cases n with
      | zero => simp [List.toChunks]
      | succ n => simp [List.toChunks, toChunks_go_flatten]

end Helpdesk
