/-
  File:      Helpdesk/Lib/Forest.lean
  Subject:   Trees with leaves, and where a leaf stands in them.

  A forest is written by its first child and its next sibling. What is gathered at the nodes
  that a search finds holds a leaf as often as the nodes above the leaf put it there: a node
  beside the leaf cannot.

  * `Located`, `mem_leaves_iff`: the chain of the nodes above a leaf;
  * `located_prune_iff`: what is left when some nodes are taken out with all below them;
  * **`count_findAll`**: how often a leaf is gathered, along its chain.
-/
import Mathlib.Data.List.Basic
import Mathlib.Data.List.Nodup
import Mathlib.Tactic.Common

namespace Helpdesk

inductive Forest (ν τ : Type) where
  | nil
  | leaf (x : τ) (next : Forest ν τ)
  | node (a : ν) (children next : Forest ν τ)
  deriving DecidableEq, Repr

namespace Forest

variable {ν τ : Type}

/-- A node with what stands below it. -/
structure Node (ν τ : Type) where
  data : ν
  children : Forest ν τ
  deriving DecidableEq, Repr

/-! ## 1. Leaves, nodes and chains -/

/-- The leaves, in the order of the forest. -/
def leaves : Forest ν τ → List τ
  | nil => []
  | leaf x next => x :: next.leaves
  | node _ children next => children.leaves ++ next.leaves

/-- The nodes of a kind, each before the ones below it. -/
def findAll (p : ν → Bool) : Forest ν τ → List (Node ν τ)
  | nil => []
  | leaf _ next => next.findAll p
  | node a children next =>
      (if p a then [⟨a, children⟩] else []) ++ (children.findAll p ++ next.findAll p)

/-- The forest without the nodes of a kind and what is below them. -/
def prune (p : ν → Bool) : Forest ν τ → Forest ν τ
  | nil => nil
  | leaf x next => leaf x (next.prune p)
  | node a children next =>
      if p a then next.prune p else node a (children.prune p) (next.prune p)

/-- A leaf with the nodes above it, from the outermost one. -/
inductive Located : Forest ν τ → List (Node ν τ) → τ → Prop where
  | here {x : τ} {next : Forest ν τ} : Located (leaf x next) [] x
  | afterLeaf {x y : τ} {chain : List (Node ν τ)} {next : Forest ν τ}
      (h : Located next chain x) : Located (leaf y next) chain x
  | afterNode {x : τ} {a : ν} {chain : List (Node ν τ)} {children next : Forest ν τ}
      (h : Located next chain x) : Located (node a children next) chain x
  | inside {x : τ} {a : ν} {chain : List (Node ν τ)} {children next : Forest ν τ}
      (h : Located children chain x) : Located (node a children next) (⟨a, children⟩ :: chain) x

variable {x : τ} {forest : Forest ν τ} {chain : List (Node ν τ)}

theorem Located.mem_leaves (h : Located forest chain x) : x ∈ forest.leaves := by
  induction h with
  | here => exact List.mem_cons_self
  | afterLeaf _ ih => exact List.mem_cons_of_mem _ ih
  | afterNode _ ih => exact List.mem_append_right _ ih
  | inside _ ih => exact List.mem_append_left _ ih

theorem mem_leaves_iff : x ∈ forest.leaves ↔ ∃ chain, Located forest chain x := by
  constructor
  · intro h
    induction forest with
    | nil => cases h
    | leaf y next ih =>
      rcases List.mem_cons.mp h with rfl | h
      · exact ⟨[], .here⟩
      · obtain ⟨chain, hchain⟩ := ih h
        exact ⟨chain, .afterLeaf hchain⟩
    | node a children next ihc ihn =>
      rcases List.mem_append.mp h with h | h
      · obtain ⟨chain, hchain⟩ := ihc h
        exact ⟨⟨a, children⟩ :: chain, .inside hchain⟩
      · obtain ⟨chain, hchain⟩ := ihn h
        exact ⟨chain, .afterNode hchain⟩
  · intro ⟨_, h⟩
    exact h.mem_leaves

/-- A node that is found has no other leaves than the forest. -/
theorem leaves_of_mem_findAll {p : ν → Bool} {a : Node ν τ} (h : a ∈ forest.findAll p) :
    a.children.leaves.Sublist forest.leaves := by
  induction forest with
  | nil => cases h
  | leaf y next ih => exact (ih h).cons y
  | node b children next ihc ihn =>
    rcases List.mem_append.mp h with h | h
    · split at h
      · rw [List.mem_singleton.mp h]
        exact List.sublist_append_left _ _
      · cases h
    · rcases List.mem_append.mp h with h | h
      · exact (ihc h).trans (List.sublist_append_left _ _)
      · exact (ihn h).trans (List.sublist_append_right _ _)

/-! ## 2. Nodes that are taken out -/

theorem leaves_prune (p : ν → Bool) (forest : Forest ν τ) :
    (forest.prune p).leaves.Sublist forest.leaves := by
  induction forest with
  | nil => exact .slnil
  | leaf y next ih => exact .cons_cons y ih
  | node a children next ihc ihn =>
    rw [prune]
    split
    · exact ihn.trans (List.sublist_append_right _ _)
    · exact ihc.append ihn

/-- **What is left** are the leaves without a node of the kind above them. -/
theorem located_prune_iff {p : ν → Bool} :
    Located (forest.prune p) chain x ↔ ∃ whole, Located forest whole x ∧ (∀ a ∈ whole, p a.data = false) ∧
      chain = whole.map fun a => ⟨a.data, a.children.prune p⟩ := by
  constructor
  · intro h
    induction forest generalizing chain with
    | nil => cases h
    | leaf y next ih =>
      cases h with
      | here => exact ⟨[], .here, fun a ha => absurd ha List.not_mem_nil, rfl⟩
      | afterLeaf h =>
        obtain ⟨whole, hwhole, hkeep, hchain⟩ := ih h
        exact ⟨whole, .afterLeaf hwhole, hkeep, hchain⟩
    | node a children next ihc ihn =>
      rw [prune] at h
      split at h
      · obtain ⟨whole, hwhole, hkeep, hchain⟩ := ihn h
        exact ⟨whole, .afterNode hwhole, hkeep, hchain⟩
      · next hp =>
        cases h with
        | afterNode h =>
          obtain ⟨whole, hwhole, hkeep, hchain⟩ := ihn h
          exact ⟨whole, .afterNode hwhole, hkeep, hchain⟩
        | inside h =>
          obtain ⟨whole, hwhole, hkeep, hchain⟩ := ihc h
          refine ⟨⟨a, children⟩ :: whole, .inside hwhole, ?_, by rw [hchain, List.map_cons]⟩
          exact List.forall_mem_cons.mpr ⟨Bool.eq_false_iff.mpr hp, hkeep⟩
  · intro ⟨whole, hwhole, hkeep, hchain⟩
    subst hchain
    induction hwhole with
    | here => exact .here
    | afterLeaf _ ih => exact .afterLeaf (ih hkeep)
    | @afterNode _ a _ _ _ _ ih =>
      rw [prune]
      split
      · exact ih hkeep
      · exact .afterNode (ih hkeep)
    | inside _ ih =>
      rw [prune, if_neg (Bool.eq_false_iff.mp (hkeep _ List.mem_cons_self))]
      exact .inside (ih fun a ha => hkeep a (List.mem_cons_of_mem _ ha))

/-! ## 3. How often a leaf is gathered -/

section Count

/-- What the nodes of a chain weigh, each with the nodes below it. -/
def weigh (w : Node ν τ → List (Node ν τ) → Nat) : List (Node ν τ) → Nat
  | [] => 0
  | a :: inner => w a inner + weigh w inner

variable [DecidableEq τ] {p : ν → Bool} {f : Node ν τ → List τ}

theorem count_of_not_mem (hf : ∀ a, f a ⊆ a.children.leaves) (h : x ∉ forest.leaves) :
    ((forest.findAll p).flatMap f).count x = 0 := by
  rw [List.count_eq_zero]
  intro hmem
  obtain ⟨a, ha, hx⟩ := List.mem_flatMap.mp hmem
  exact h ((leaves_of_mem_findAll ha).subset (hf a hx))

/-- **A leaf is gathered by the nodes above it**, where no leaf stands twice. -/
theorem count_findAll (hf : ∀ a, f a ⊆ a.children.leaves) {w : Node ν τ → List (Node ν τ) → Nat}
    (hdistinct : forest.leaves.Nodup) (h : Located forest chain x)
    (hw : ∀ (a : Node ν τ) (inner : List (Node ν τ)), a.children.leaves.Nodup →
      Located a.children inner x → w a inner = if p a.data then (f a).count x else 0) :
    ((forest.findAll p).flatMap f).count x = weigh w chain := by
  induction h with
  | @here x next =>
    rw [leaves, List.nodup_cons] at hdistinct
    have hnone : ((next.findAll p).flatMap f).count x = 0 := count_of_not_mem hf hdistinct.1
    exact hnone
  | afterLeaf _ ih =>
    rw [leaves, List.nodup_cons] at hdistinct
    exact ih hdistinct.2 hw
  | @afterNode x a chain children next h ih =>
    rw [leaves, List.nodup_append] at hdistinct
    obtain ⟨_, hnext, hapart⟩ := hdistinct
    have hnot : x ∉ children.leaves := fun hx => hapart x hx x h.mem_leaves rfl
    have hown : ((if p a then [⟨a, children⟩] else []).flatMap f).count x = 0 := by
      rw [List.count_eq_zero]
      intro hmem
      split at hmem
      · rw [List.flatMap_singleton] at hmem
        exact hnot (hf _ hmem)
      · cases hmem
    rw [findAll, List.flatMap_append, List.flatMap_append, List.count_append, List.count_append, hown,
      count_of_not_mem hf hnot, ih hnext hw, Nat.zero_add, Nat.zero_add]
  | @inside x a chain children next h ih =>
    rw [leaves, List.nodup_append] at hdistinct
    obtain ⟨hchildren, _, hapart⟩ := hdistinct
    have hnot : x ∉ next.leaves := fun hx => hapart x h.mem_leaves x hx rfl
    have hown : ((if p a then [⟨a, children⟩] else []).flatMap f).count x = w ⟨a, children⟩ chain := by
      rw [hw _ _ hchildren h]
      split
      · rw [List.flatMap_singleton]
      · rfl
    rw [findAll, List.flatMap_append, List.flatMap_append, List.count_append, List.count_append, hown,
      ih hchildren hw, count_of_not_mem hf hnot, Nat.add_zero, weigh]

end Count

end Forest

end Helpdesk
