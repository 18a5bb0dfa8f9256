/-
  File:      Helpdesk/Lib/Keyset.lean
  Subject:   Keyset pagination: pages of a descending list, each from the key of the
             last row before it.

  * `select`: the first rows below a key;
  * `paginate`: a page and its cursor, from one row more than the page holds;
  * `walk`: the pages of a list, followed cursor by cursor;
  * **`walk_pages`**: the walk ends, and its rows are all rows in descending order.
-/
import Helpdesk.Lib.Ranking
import Mathlib.Data.List.Nodup
import Mathlib.Order.Basic
import Mathlib.Order.Defs.LinearOrder
import Mathlib.Order.Lattice

namespace Helpdesk.Keyset

variable {ρ κ γ ε : Type}

/-! ## 1. Pages -/

section Pages

variable [LinearOrder κ] (key : ρ → κ)

/-- `ORDER BY key DESC` -/
def descending (rows : List ρ) : List ρ := rows.mergeSort fun a b => key b ≤ key a

/-- `WHERE :before IS NULL OR key < :before` -/
def below (before : Option κ) (row : ρ) : Bool := before.all (key row < ·)

/-- `WHERE ... ORDER BY key DESC LIMIT :limit` -/
def select (rows : List ρ) (before : Option κ) (limit : Nat) : List ρ :=
  (descending key (rows.filter (below key before))).take limit

/-- The page of at most `limit` rows, and the cursor of its last row when there were
    more. -/
def paginate (encode : ρ → γ) (limit : Nat) (rows : List ρ) : List ρ × Option γ :=
  let page := rows.take limit
  (page, if limit < rows.length then page.getLast?.map encode else none)

end Pages

/-- The pages of a list, from one cursor to the next; `none` where more than `fuel`
    pages are left. -/
def walk (list : Option γ → Except ε (List ρ × Option γ)) :
    Nat → Option γ → Option (Except ε (List ρ))
  | 0, _ => none
  | fuel + 1, cursor =>
      match list cursor with
      | .error e => some (.error e)
      | .ok (page, none) => some (.ok page)
      | .ok (page, some next) => (walk list fuel (some next)).map (·.map (page ++ ·))

/-! ## 2. The rows in order -/

section Order

variable [LinearOrder κ] {key : ρ → κ} {rows done rest : List ρ}

/-- Rows with different keys are ordered by them. -/
theorem ordersOn_key (hkeys : (rows.map key).Nodup) :
    OrdersOn (fun a b => decide (key b ≤ key a)) (· ∈ rows) where
  trans a b c _ _ _ hab hbc := by
    rw [decide_eq_true_eq] at hab hbc ⊢
    exact le_trans hbc hab
  total a b _ _ := by
    rw [Bool.or_eq_true, decide_eq_true_eq, decide_eq_true_eq]
    exact le_total (key b) (key a)
  antisymm a b ha hb hab hba := by
    rw [decide_eq_true_eq] at hab hba
    exact (List.nodup_map_iff_inj_on hkeys.of_map).mp hkeys a ha b hb (le_antisymm hba hab)

/-- **The declared order**: every row above the rows after it. -/
theorem descending_strict (hkeys : (rows.map key).Nodup) :
    (descending key rows).Pairwise fun a b => key b < key a := by
  have hsorted := (ordersOn_key hkeys).pairwise_mergeSort
  have hperm : ((descending key rows).map key).Nodup :=
    ((List.mergeSort_perm rows _).map key).nodup_iff.mpr hkeys
  have hne : (descending key rows).Pairwise fun a b => key a ≠ key b :=
    List.pairwise_map.mp hperm
  refine (hsorted.and hne).imp ?_
  rintro a b ⟨hle, hne⟩
  exact lt_of_le_of_ne (of_decide_eq_true hle) (Ne.symm hne)

theorem descending_filter (hkeys : (rows.map key).Nodup) (p : ρ → Bool) :
    descending key (rows.filter p) = (descending key rows).filter p :=
  ((ordersOn_key hkeys).filter_mergeSort p).symm

/-- The rows below the last of the first rows are the others. -/
theorem filter_below (hstrict : (done ++ rest).Pairwise fun a b => key b < key a) :
    (done ++ rest).filter (below key (done.getLast?.map key)) = rest := by
  rcases List.eq_nil_or_concat done with rfl | ⟨front, last, rfl⟩
  · simp [below]
  · rw [List.concat_eq_append] at hstrict ⊢
    have hlast : ((front ++ [last]).getLast?.map key) = some (key last) := by simp
    obtain ⟨hdone, -, hcross⟩ := List.pairwise_append.mp hstrict
    have hfront : ∀ a ∈ front ++ [last], key last ≤ key a := by
      intro a ha
      rcases List.mem_append.mp ha with ha | ha
      · exact le_of_lt ((List.pairwise_append.mp hdone).2.2 a ha last List.mem_cons_self)
      · rw [List.mem_singleton.mp ha]
    rw [hlast, List.filter_append]
    have hnone : (front ++ [last]).filter (below key (some (key last))) = [] := by
      rw [List.filter_eq_nil_iff]
      intro a ha hbelow
      exact absurd (of_decide_eq_true hbelow) (not_lt.mpr (hfront a ha))
    have hall : rest.filter (below key (some (key last))) = rest := by
      rw [List.filter_eq_self]
      intro a ha
      exact decide_eq_true (hcross last (by simp) a ha)
    rw [hnone, hall, List.nil_append]

/-- **A page begins where the rows before it end.** -/
theorem select_rest (hkeys : (rows.map key).Nodup) (hrows : descending key rows = done ++ rest)
    (limit : Nat) : select key rows (done.getLast?.map key) limit = rest.take limit := by
  have hstrict := descending_strict hkeys
  rw [hrows] at hstrict
  rw [select, descending_filter hkeys, hrows, filter_below hstrict]

end Order

/-! ## 3. The walk -/

section Walk

variable [LinearOrder κ] {key : ρ → κ} {rows : List ρ} {limit : Nat} {encode : ρ → γ}
  {list : Option γ → Except ε (List ρ × Option γ)}

/-- The walk from the rows that are left. -/
theorem walk_rest (hkeys : (rows.map key).Nodup) (hlimit : 1 ≤ limit)
    (hnext : ∀ r ∈ rows, list (some (encode r)) =
      .ok (paginate encode limit (select key rows (some (key r)) (limit + 1)))) :
    ∀ (fuel : Nat) (done rest : List ρ) (cursor : Option γ),
      descending key rows = done ++ rest → rest.length < fuel →
      list cursor = .ok (paginate encode limit (rest.take (limit + 1))) →
      walk list fuel cursor = some (.ok rest) := by
  intro fuel
  induction fuel with
  | zero =>
      intro done rest cursor _ hfuel
      exact absurd hfuel (Nat.not_lt_zero _)
  | succ fuel ih =>
      intro done rest cursor hrows hfuel hpage
      have htake : (rest.take (limit + 1)).take limit = rest.take limit := by
        rw [List.take_take, Nat.min_eq_left (Nat.le_succ limit)]
      rw [walk, hpage, paginate, htake]
      by_cases hmore : limit < (rest.take (limit + 1)).length
      · have hlong : limit < rest.length := by
          rw [List.length_take] at hmore
          omega
        have hne : rest.take limit ≠ [] := by
          rw [← List.length_pos_iff, List.length_take]
          omega
        have hlast : (rest.take limit).getLast? = some ((rest.take limit).getLast hne) :=
          List.getLast?_eq_some_getLast hne
        have hmem : (rest.take limit).getLast hne ∈ rows := by
          have hdescending : (rest.take limit).getLast hne ∈ descending key rows := by
            rw [hrows]
            exact List.mem_append_right _ (List.mem_of_mem_take (List.getLast_mem hne))
          exact List.mem_mergeSort.mp hdescending
        have hsplit : descending key rows = (done ++ rest.take limit) ++ rest.drop limit := by
          rw [List.append_assoc, List.take_append_drop, hrows]
        have hselect := select_rest hkeys hsplit (limit + 1)
        rw [List.getLast?_append_of_ne_nil _ hne, hlast, Option.map_some] at hselect
        have hwalk := ih (done ++ rest.take limit) (rest.drop limit) _ hsplit
          (by rw [List.length_drop]; omega) ((hnext _ hmem).trans (by rw [hselect]))
        simp only [if_pos hmore, hlast, Option.map_some, hwalk, Except.map]
        rw [List.take_append_drop]
      · have hshort : rest.length ≤ limit := by
          rw [List.length_take] at hmore
          omega
        simp only [if_neg hmore, List.take_of_length_le hshort]

/-- **The walk ends, and its rows are all rows in descending order.** -/
theorem walk_pages (hkeys : (rows.map key).Nodup) (hlimit : 1 ≤ limit)
    (hfirst : list none = .ok (paginate encode limit (select key rows none (limit + 1))))
    (hnext : ∀ r ∈ rows, list (some (encode r)) =
      .ok (paginate encode limit (select key rows (some (key r)) (limit + 1))))
    {fuel : Nat} (hfuel : rows.length < fuel) :
    walk list fuel none = some (.ok (descending key rows)) := by
  have hrows : descending key rows = [] ++ descending key rows := rfl
  have hselect := select_rest hkeys hrows (limit + 1)
  refine walk_rest hkeys hlimit hnext fuel [] (descending key rows) none rfl ?_ ?_
  · rw [descending, List.length_mergeSort]
    exact hfuel
  · rw [hfirst]
    exact congrArg (fun page => Except.ok (paginate encode limit page)) hselect

/-- A list that refuses its first page. -/
theorem walk_refused {e : ε} (hfirst : list none = .error e) {fuel : Nat} (hfuel : 0 < fuel) :
    walk list fuel none = some (.error e) := by
  obtain ⟨fuel, rfl⟩ : ∃ n, fuel = n + 1 := ⟨fuel - 1, by omega⟩
  rw [walk, hfirst]

end Walk

end Helpdesk.Keyset
