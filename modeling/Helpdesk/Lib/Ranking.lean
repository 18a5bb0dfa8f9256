/-
  File:      Helpdesk/Lib/Ranking.lean
  Subject:   Sorting the items of a list under an order that need only be one on
             these items.

  * `OrdersOn.pairwise_mergeSort`: the sorted list is in order;
  * `OrdersOn.filter_mergeSort`: sorting and filtering commute;
  * `OrdersOn.mergeSort_eq_merge`: a sorted list is the merge of the sorted items
    that meet a test with the sorted others;
  * `OrdersOn.idxOf_mergeSort_le`: an item that gains no rivals loses no place;
  * `Moved.idxOf_le`: where one item of a list moves forward, no other one does.
-/
import Mathlib.Data.List.Basic
import Mathlib.Data.List.Nodup
import Mathlib.Data.List.Perm.Subperm
import Mathlib.Data.List.Pairwise
import Mathlib.Tactic.Common

namespace Helpdesk

variable {α : Type} {le : α → α → Bool} {P Q : α → Prop} {xs ys : List α}

/-- **`le` orders the items that satisfy `P`.** -/
structure OrdersOn (le : α → α → Bool) (P : α → Prop) : Prop where
  trans : ∀ a b c, P a → P b → P c → le a b = true → le b c = true → le a c = true
  total : ∀ a b, P a → P b → (le a b || le b a) = true
  antisymm : ∀ a b, P a → P b → le a b = true → le b a = true → a = b

theorem OrdersOn.mono (h : OrdersOn le P) (hPQ : ∀ a, Q a → P a) : OrdersOn le Q where
  trans := fun a b c ha hb hc => h.trans a b c (hPQ a ha) (hPQ b hb) (hPQ c hc)
  total := fun a b ha hb => h.total a b (hPQ a ha) (hPQ b hb)
  antisymm := fun a b ha hb => h.antisymm a b (hPQ a ha) (hPQ b hb)

/-! ## 1. Sorted lists -/

/-- The items with their proofs stand as the items do. -/
theorem pairwise_attachWith {R : α → α → Prop} (h : ∀ a ∈ xs, P a) :
    (xs.attachWith P h).Pairwise (fun a b => R a.val b.val) ↔ xs.Pairwise R := by
  rw [← List.pairwise_map (f := Subtype.val), List.attachWith_map_subtype_val]

theorem mergeSort_attachWith (h : ∀ a ∈ xs, P a) :
    (xs.attachWith P h).mergeSort (fun a b => le a.val b.val) =
      (xs.mergeSort le).attachWith P fun a ha => h a (List.mem_mergeSort.mp ha) := by
  refine List.map_injective_iff.mpr Subtype.val_injective ?_
  rw [List.attachWith_map_subtype_val,
    List.map_mergeSort (s := le) (f := Subtype.val) fun _ _ _ _ => rfl,
    List.attachWith_map_subtype_val]

theorem OrdersOn.pairwise_mergeSort (h : OrdersOn le (· ∈ xs)) :
    (xs.mergeSort le).Pairwise (le · · = true) := by
  have hsorted : ((xs.attachWith (· ∈ xs) fun _ ha => ha).mergeSort
      fun a b => le a.val b.val).Pairwise fun a b => le a.val b.val = true :=
    List.pairwise_mergeSort
      (fun (a b c : {a // a ∈ xs}) => h.trans a b c a.2 b.2 c.2)
      (fun (a b : {a // a ∈ xs}) => h.total a b a.2 b.2) _
  rw [mergeSort_attachWith] at hsorted
  exact (pairwise_attachWith (R := (le · · = true)) _).mp hsorted

theorem OrdersOn.pairwise_merge (h : OrdersOn le fun a => a ∈ xs ∨ a ∈ ys)
    (hxs : xs.Pairwise (le · · = true)) (hys : ys.Pairwise (le · · = true)) :
    (xs.merge ys le).Pairwise (le · · = true) := by
  have hl : ∀ a ∈ xs, a ∈ xs ∨ a ∈ ys := fun _ ha => .inl ha
  have hr : ∀ a ∈ ys, a ∈ xs ∨ a ∈ ys := fun _ ha => .inr ha
  have hmerged : ((xs.attachWith _ hl).merge (ys.attachWith _ hr)
      fun a b => le a.val b.val).Pairwise fun a b => le a.val b.val = true :=
    List.pairwise_merge
      (fun (a b c : {a // a ∈ xs ∨ a ∈ ys}) => h.trans a b c a.2 b.2 c.2)
      (fun (a b : {a // a ∈ xs ∨ a ∈ ys}) => h.total a b a.2 b.2)
      (xs.attachWith _ hl) (ys.attachWith _ hr)
      ((pairwise_attachWith (R := (le · · = true)) hl).mpr hxs)
      ((pairwise_attachWith (R := (le · · = true)) hr).mpr hys)
  have hvals := (List.pairwise_map (f := Subtype.val) (R := (le · · = true))).mpr hmerged
  rwa [List.map_merge (s := le) (f := Subtype.val) fun _ _ _ _ => rfl,
    List.attachWith_map_subtype_val, List.attachWith_map_subtype_val] at hvals

/-- There is one order of given items. -/
theorem OrdersOn.eq_of_perm (h : OrdersOn le (· ∈ xs)) (hperm : xs.Perm ys)
    (hxs : xs.Pairwise (le · · = true)) (hys : ys.Pairwise (le · · = true)) : xs = ys :=
  hperm.eq_of_pairwise
    (fun a b ha hb => h.antisymm a b ha (hperm.mem_iff.mpr hb)) hxs hys

/-! ## 2. Parts of a sorted list -/

theorem OrdersOn.mergeSort_perm (h : OrdersOn le (· ∈ xs)) (hperm : xs.Perm ys) :
    xs.mergeSort le = ys.mergeSort le := by
  have hys : OrdersOn le (· ∈ ys) := h.mono fun _ ha => hperm.mem_iff.mpr ha
  have hsort : OrdersOn le (· ∈ xs.mergeSort le) := h.mono fun _ ha => List.mem_mergeSort.mp ha
  refine hsort.eq_of_perm ?_ h.pairwise_mergeSort hys.pairwise_mergeSort
  exact (List.mergeSort_perm xs le).trans (hperm.trans (List.mergeSort_perm ys le).symm)

/-- **Sorting and filtering commute.** -/
theorem OrdersOn.filter_mergeSort (h : OrdersOn le (· ∈ xs)) (q : α → Bool) :
    (xs.mergeSort le).filter q = (xs.filter q).mergeSort le := by
  have hq : OrdersOn le (· ∈ xs.filter q) := h.mono fun _ ha => (List.mem_filter.mp ha).1
  have hsort : OrdersOn le (· ∈ (xs.mergeSort le).filter q) :=
    h.mono fun _ ha => List.mem_mergeSort.mp (List.mem_filter.mp ha).1
  refine hsort.eq_of_perm ?_ (h.pairwise_mergeSort.filter q) hq.pairwise_mergeSort
  exact ((List.mergeSort_perm xs le).filter q).trans (List.mergeSort_perm _ le).symm

/-- **A sorted list is the merge of its two parts.** -/
theorem OrdersOn.mergeSort_eq_merge (h : OrdersOn le (· ∈ xs)) (q : α → Bool) :
    xs.mergeSort le =
      ((xs.filter q).mergeSort le).merge ((xs.filter fun a => !q a).mergeSort le) le := by
  have hpart : ∀ p : α → Bool, OrdersOn le (· ∈ xs.filter p) :=
    fun p => h.mono fun _ ha => (List.mem_filter.mp ha).1
  have hsort : OrdersOn le (· ∈ xs.mergeSort le) := h.mono fun _ ha => List.mem_mergeSort.mp ha
  refine hsort.eq_of_perm ?_ h.pairwise_mergeSort (OrdersOn.pairwise_merge (h.mono ?_)
    (hpart q).pairwise_mergeSort (hpart _).pairwise_mergeSort)
  · have hsplit := ((List.mergeSort_perm (xs.filter q) le).append
      (List.mergeSort_perm (xs.filter fun a => !q a) le)).trans (List.filter_append_perm q xs)
    exact (List.mergeSort_perm xs le).trans ((List.merge_perm_append _).trans hsplit).symm
  · rintro a (ha | ha)
    · exact (List.mem_filter.mp (List.mem_mergeSort.mp ha)).1
    · exact (List.mem_filter.mp (List.mem_mergeSort.mp ha)).1

/-! ## 3. Places -/

section Places

variable {κ : Type} [DecidableEq α] [BEq α] [LawfulBEq α]

/-- **The place of an item is the number of the items before it.** -/
theorem OrdersOn.idxOf_mergeSort (h : OrdersOn le (· ∈ xs)) (hnodup : xs.Nodup) {a : α}
    (ha : a ∈ xs) :
    (xs.mergeSort le).idxOf a = (xs.filter fun b => le b a && decide (b ≠ a)).length := by
  have hperm := List.mergeSort_perm xs le
  have hsorted := h.pairwise_mergeSort
  obtain ⟨front, back, hsplit⟩ := List.append_of_mem (List.mem_mergeSort.mpr ha : a ∈ xs.mergeSort le)
  have hnodup' : (front ++ a :: back).Nodup := hsplit ▸ hperm.nodup_iff.mpr hnodup
  have hmem : ∀ b ∈ front ++ a :: back, b ∈ xs := by
    intro b hb
    rw [← hsplit] at hb
    exact List.mem_mergeSort.mp hb
  rw [hsplit] at hsorted
  have hfront : a ∉ front := fun hin =>
    List.disjoint_of_nodup_append hnodup' hin List.mem_cons_self
  have hback : a ∉ back := (List.nodup_cons.mp hnodup'.of_append_right).1
  have hbefore : ∀ b ∈ front, (le b a && decide (b ≠ a)) = true := by
    intro b hb
    have hle := (List.pairwise_append.mp hsorted).2.2 b hb a List.mem_cons_self
    rw [hle, Bool.true_and, decide_eq_true_iff]
    intro hba
    exact hfront (hba ▸ hb)
  have hafter : ∀ b ∈ a :: back, ¬(le b a && decide (b ≠ a)) = true := by
    intro b hb htest
    rw [Bool.and_eq_true, decide_eq_true_iff] at htest
    have hback : b ∈ back := (List.mem_cons.mp hb).resolve_left htest.2
    have hab := List.rel_of_pairwise_cons (List.pairwise_append.mp hsorted).2.1 hback
    exact htest.2 (h.antisymm b a (hmem b (List.mem_append_right _ hb)) ha htest.1 hab)
  have hcount := (hperm.filter fun b => le b a && decide (b ≠ a)).length_eq
  rw [← hcount, hsplit, List.filter_append, List.filter_eq_self.mpr hbefore,
    List.filter_eq_nil_iff.mpr hafter, List.append_nil, List.idxOf_append_of_notMem hfront,
    List.idxOf_cons_self, Nat.add_zero]

/-- **An item that gains no rivals loses no place**: each item before `b` among `ys`
    comes with one before `a` among `xs`. -/
theorem OrdersOn.idxOf_mergeSort_le (key : α → κ) (hxs : OrdersOn le (· ∈ xs))
    (hys : OrdersOn le (· ∈ ys)) (hnodup : xs.Nodup) (hkeys : (ys.map key).Nodup) {a b : α}
    (ha : a ∈ xs) (hb : b ∈ ys)
    (hbefore : ∀ c ∈ ys, c ≠ b → le c b = true →
      ∃ d ∈ xs, key d = key c ∧ d ≠ a ∧ le d a = true) :
    (ys.mergeSort le).idxOf b ≤ (xs.mergeSort le).idxOf a := by
  rw [hxs.idxOf_mergeSort hnodup ha, hys.idxOf_mergeSort hkeys.of_map hb,
    ← List.length_map (f := key), ← List.length_map (f := key)]
  refine List.Subperm.length_le (List.Nodup.subperm (hkeys.sublist (List.filter_sublist.map key)) ?_)
  intro k hk
  obtain ⟨c, hc, rfl⟩ := List.mem_map.mp hk
  rw [List.mem_filter, Bool.and_eq_true, decide_eq_true_iff] at hc
  obtain ⟨d, hd, hkey, hne, hle⟩ := hbefore c hc.1 hc.2.2 hc.2.1
  refine List.mem_map.mpr ⟨d, List.mem_filter.mpr ⟨hd, ?_⟩, hkey⟩
  rw [hle, Bool.true_and, decide_eq_true_iff]
  exact hne

/-- **`ys` is `xs` with one item at a place that is not later**, where it is an item. -/
structure Moved (a : α) (xs ys : List α) : Prop where
  others : ys.filter (· ≠ a) = xs.filter (· ≠ a)
  mem : a ∈ ys ↔ a ∈ xs
  place : a ∈ xs → ys.idxOf a ≤ xs.idxOf a

omit [LawfulBEq α] in
theorem Moved.mem_iff (h : Moved a xs ys) (b : α) : b ∈ ys ↔ b ∈ xs := by
  by_cases hb : b = a
  · rw [hb]
    exact h.mem
  · have hmem : b ∈ ys.filter (· ≠ a) ↔ b ∈ xs.filter (· ≠ a) := by rw [h.others]
    simpa [List.mem_filter, hb] using hmem

/-- A list without one of its items. -/
theorem filter_ne_split {front back : List α} (h : (front ++ a :: back).Nodup) :
    (front ++ a :: back).filter (· ≠ a) = front ++ back ∧
      (front ++ a :: back).idxOf a = front.length := by
  have hfront : a ∉ front := fun hin => List.disjoint_of_nodup_append h hin List.mem_cons_self
  have hback : a ∉ back := (List.nodup_cons.mp h.of_append_right).1
  constructor
  · rw [List.filter_append, List.filter_cons_of_neg (by simp), List.filter_eq_self.mpr,
      List.filter_eq_self.mpr]
    · exact fun c hc => decide_eq_true fun hca => hback (hca ▸ hc)
    · exact fun c hc => decide_eq_true fun hca => hfront (hca ▸ hc)
  · rw [List.idxOf_append_of_notMem hfront, List.idxOf_cons_self]
    rfl

/-- **No other item gets an earlier place.** -/
theorem Moved.idxOf_le (h : Moved a xs ys) (hxs : xs.Nodup) (hys : ys.Nodup) {b : α}
    (hb : b ≠ a) : xs.idxOf b ≤ ys.idxOf b := by
  by_cases ha : a ∈ xs
  · -- both lists around the item: it moves over the items `passed`
    have hplace := h.place ha
    obtain ⟨front', back', hsplit'⟩ := List.append_of_mem (h.mem.mpr ha)
    obtain ⟨front, back, hsplit⟩ := List.append_of_mem ha
    have hothers := h.others
    rw [hsplit] at hxs hothers hplace ⊢
    rw [hsplit'] at hys hothers hplace ⊢
    rw [(filter_ne_split hxs).1, (filter_ne_split hys).1] at hothers
    rw [(filter_ne_split hxs).2, (filter_ne_split hys).2] at hplace
    obtain ⟨passed, rfl⟩ : front' <+: front := by
      refine List.prefix_of_prefix_length_le ?_ (List.prefix_append front back) hplace
      exact hothers ▸ List.prefix_append front' back'
    rw [List.append_assoc] at hothers
    obtain rfl := List.append_cancel_left hothers
    rw [List.append_assoc]
    by_cases h1 : b ∈ front'
    · exact Nat.le_of_eq ((List.idxOf_append_of_mem h1).trans (List.idxOf_append_of_mem h1).symm)
    · rw [List.idxOf_append_of_notMem h1, List.idxOf_append_of_notMem h1,
        List.idxOf_cons_ne _ hb.symm]
      by_cases h2 : b ∈ passed
      · rw [List.idxOf_append_of_mem h2, List.idxOf_append_of_mem h2]
        omega
      · rw [List.idxOf_append_of_notMem h2, List.idxOf_append_of_notMem h2,
          List.idxOf_cons_ne _ hb.symm]
        omega
  · have hkeep : ∀ {zs : List α}, a ∉ zs → zs.filter (· ≠ a) = zs := fun hzs =>
      List.filter_eq_self.mpr fun c hc => decide_eq_true fun hca => hzs (hca ▸ hc)
    have hothers := h.others
    rw [hkeep ha, hkeep (mt h.mem.mp ha)] at hothers
    exact hothers ▸ Nat.le_refl _

end Places

end Helpdesk
