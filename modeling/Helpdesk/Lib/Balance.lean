/-
  File:      Helpdesk/Lib/Balance.lean
  Subject:   Shares that always go to who has the fewest.

  * `Balanced s count`: no one of `s` is more than one ahead of another;
  * `Balanced.give`: a further share for one who has the fewest keeps it so, however
    ties are broken;
  * **`Balanced.share`**: then everyone's share of `k` is `k` divided by the number of
    takers, rounded down or up.
-/
import Mathlib.Algebra.BigOperators.Ring.Finset
import Mathlib.Algebra.Order.BigOperators.Group.Finset
import Mathlib.Tactic.Ring

namespace Helpdesk

variable {α : Type} [DecidableEq α]

/-- No one is more than one ahead of another. -/
def Balanced (s : Finset α) (count : α → ℕ) : Prop := ∀ a ∈ s, ∀ b ∈ s, count a ≤ count b + 1

variable {s : Finset α} {count count' : α → ℕ} {a : α}

/-- One more for `a`, who has the fewest. -/
theorem Balanced.give (h : Balanced s count) (hleast : ∀ b ∈ s, count a ≤ count b)
    (ha : count' a = count a + 1) (hothers : ∀ b, b ≠ a → count' b = count b) :
    Balanced s count' := by
  intro b hb c hc
  have hbc := h b hb c hc
  have hkept : count c ≤ count' c := by
    by_cases hca : c = a
    · rw [hca, ha]
      omega
    · rw [hothers c hca]
  by_cases hba : b = a
  · have hac := hleast c hc
    rw [hba, ha]
    omega
  · rw [hothers b hba]
    omega

/-- **The share of each**: what there is by the number of takers, rounded down or up. -/
theorem Balanced.share (h : Balanced s count) (ha : a ∈ s) :
    count a = (∑ b ∈ s, count b) / s.card ∨
      count a = ((∑ b ∈ s, count b) + s.card - 1) / s.card := by
  have hcard : s.card = (s.erase a).card + 1 := (Finset.card_erase_add_one ha).symm
  have hsum : ∑ b ∈ s, count b = ∑ b ∈ s.erase a, count b + count a :=
    (Finset.sum_erase_add s count ha).symm
  have hupper : ∑ b ∈ s.erase a, count b ≤ (s.erase a).card * (count a + 1) := by
    have hle := Finset.sum_le_card_nsmul (s.erase a) count (count a + 1) fun b hb =>
      h b (Finset.mem_of_mem_erase hb) a ha
    simpa using hle
  have hlower : (s.erase a).card * (count a - 1) ≤ ∑ b ∈ s.erase a, count b := by
    have hle := Finset.card_nsmul_le_sum (s.erase a) count (count a - 1) fun b hb => by
      have hab := h a ha b (Finset.mem_of_mem_erase hb)
      omega
    simpa using hle
  rw [hcard, hsum]
  generalize ∑ b ∈ s.erase a, count b = others at hupper hlower
  generalize (s.erase a).card = n at hupper hlower
  -- the others together are short of `n` more each, or of `n` fewer each
  by_cases hfew : others < n * count a
  · right
    have hmul : n * count a ≤ n * (count a - 1) + n := by
      rw [← Nat.mul_succ]
      exact Nat.mul_le_mul_left n (by omega)
    symm
    rw [Nat.div_eq_iff (by omega)]
    have hexpand : (count a) * (n + 1) = n * count a + count a := by ring
    constructor <;> omega
  · left
    symm
    have hexpand : n * (count a + 1) = n * count a + n := by ring
    have hexpand' : (count a) * (n + 1) = n * count a + count a := by ring
    rw [Nat.div_eq_iff (by omega)]
    constructor <;> omega

end Helpdesk
