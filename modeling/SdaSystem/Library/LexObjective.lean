import Mathlib.Algebra.Order.Ring.Int
import Mathlib.Data.Int.LeastGreatest
import Mathlib.Tactic.Linarith

/-!
Two objectives on a set of feasible points: a primary one that counts and a secondary one that breaks
ties. Maximising the weighted sum `weight * count + value` finds the lexicographic maxima exactly if
no point that counts less makes up for it in value.
-/

namespace LexObjective

variable {α : Type*} (feasible : α → Prop) (count value : α → ℤ) (weight : ℤ)

structure IsLexBest (a : α) : Prop where
  isFeasible : feasible a
  count_le : ∀ b, feasible b → count b ≤ count a
  value_le : ∀ b, feasible b → count b = count a → value b ≤ value a

structure IsWeightedBest (a : α) : Prop where
  isFeasible : feasible a
  le : ∀ b, feasible b → weight * count b + value b ≤ weight * count a + value a

variable {feasible count value weight}

/-- Points may be seen through a map that keeps what counts and misses no feasible point. -/
theorem isLexBest_map_iff {β : Type*} {feasible' : β → Prop} {count' value' : β → ℤ} {g : α → β}
    (hfeasible : ∀ a, feasible a
      → feasible' (g a) ∧ count' (g a) = count a ∧ value' (g a) = value a)
    (hsurjective : ∀ b, feasible' b → ∃ a, feasible a ∧ g a = b) {a : α} (ha : feasible a)
    : IsLexBest feasible count value a ↔ IsLexBest feasible' count' value' (g a) := by
  obtain ⟨ha', hcount, hvalue⟩ := hfeasible a ha
  constructor
  . intro h
    refine ⟨ha', ?_, ?_⟩
    . intro b hb
      obtain ⟨c, hc, rfl⟩ := hsurjective b hb
      obtain ⟨_, hcount', _⟩ := hfeasible c hc
      rw [hcount, hcount']
      apply h.count_le c hc
    . intro b hb heq
      obtain ⟨c, hc, rfl⟩ := hsurjective b hb
      obtain ⟨_, hcount', hvalue'⟩ := hfeasible c hc
      rw [hcount, hcount'] at heq
      rw [hvalue, hvalue']
      apply h.value_le c hc heq
  . intro h
    refine ⟨ha, ?_, ?_⟩
    . intro b hb
      obtain ⟨hb', hcount', _⟩ := hfeasible b hb
      have := h.count_le _ hb'
      rwa [hcount, hcount'] at this
    . intro b hb heq
      obtain ⟨hb', hcount', hvalue'⟩ := hfeasible b hb
      have := h.value_le _ hb' (by rw [hcount, hcount', heq])
      rwa [hvalue, hvalue'] at this

theorem exists_max {feasible : α → Prop} (f : α → ℤ) {m : ℤ} (hne : ∃ a, feasible a)
    (hf : ∀ a, feasible a → f a ≤ m)
    : ∃ a, feasible a ∧ ∀ b, feasible b → f b ≤ f a := by
  obtain ⟨a, ha⟩ := hne
  have hbound : ∃ m, ∀ z, (∃ b, feasible b ∧ f b = z) → z ≤ m :=
    ⟨m, by rintro z ⟨b, hb, rfl⟩; exact hf b hb⟩
  obtain ⟨z, ⟨b, hb, rfl⟩, hmax⟩ := Int.exists_greatest_of_bdd hbound ⟨f a, a, ha, rfl⟩
  exact ⟨b, hb, fun c hc => hmax _ ⟨c, hc, rfl⟩⟩

theorem exists_isLexBest {m n : ℤ} (hne : ∃ a, feasible a) (hcount : ∀ a, feasible a → count a ≤ m)
    (hvalue : ∀ a, feasible a → value a ≤ n) : ∃ a, IsLexBest feasible count value a := by
  obtain ⟨a, ha, hmax⟩ := exists_max count hne hcount
  have hne' : ∃ b, feasible b ∧ count b = count a := ⟨a, ha, rfl⟩
  obtain ⟨b, hb, hbest⟩ := exists_max value hne' fun b hb => hvalue b hb.left
  refine ⟨b, hb.left, ?_, ?_⟩
  . intro c hc
    rw [hb.right]
    apply hmax c hc
  . intro c hc heq
    apply hbest
    exact ⟨hc, by rw [heq, hb.right]⟩

theorem IsLexBest.weighted_eq {a b : α} (ha : IsLexBest feasible count value a) (weight : ℤ)
    (hb : IsLexBest feasible count value b)
    : weight * count a + value a = weight * count b + value b := by
  have hcount := le_antisymm (hb.count_le a ha.isFeasible) (ha.count_le b hb.isFeasible)
  have hvalue := le_antisymm
    (hb.value_le a ha.isFeasible hcount) (ha.value_le b hb.isFeasible hcount.symm)
  rw [hcount, hvalue]

theorem forall_isLexBest_iff {m n : ℤ} (hne : ∃ a, feasible a)
    (hnonneg : ∀ a, feasible a → 0 ≤ count a) (hcount : ∀ a, feasible a → count a ≤ m)
    (hvalue : ∀ a, feasible a → value a ≤ n)
    : (∀ a, IsWeightedBest feasible count value weight a → IsLexBest feasible count value a)
        ↔
      ∀ best other, IsLexBest feasible count value best → feasible other → count other < count best
        → value other < value best + weight * (count best - count other) := by
  constructor
  . intro h best other hbest hother hlt
    by_contra hge
    have hbound : ∀ b, feasible b → weight * count b + value b ≤ |weight| * m + n := by
      intro b hb
      have := mul_le_mul_of_nonneg_right (le_abs_self weight) (hnonneg b hb)
      have := mul_le_mul_of_nonneg_left (hcount b hb) (abs_nonneg weight)
      have := hvalue b hb
      linarith
    obtain ⟨a, ha, hmax⟩ := exists_max (fun a => weight * count a + value a) hne hbound
    have heq := (h a ⟨ha, hmax⟩).weighted_eq weight hbest
    -- `other` is as good as the maximum, hence lexicographically best, although it counts less
    have hother' : IsWeightedBest feasible count value weight other := by
      refine ⟨hother, ?_⟩
      intro b hb
      have := hmax b hb
      rw [mul_sub] at hge
      linarith
    have := (h other hother').count_le best hbest.isFeasible
    omega
  . intro h a ha
    obtain ⟨best, hbest⟩ := exists_isLexBest hne hcount hvalue
    have hle := ha.le best hbest.isFeasible
    have hcount_eq : count a = count best := by
      apply le_antisymm (hbest.count_le a ha.isFeasible)
      by_contra hlt
      have := h best a hbest ha.isFeasible (by omega)
      linarith
    refine ⟨ha.isFeasible, ?_, ?_⟩
    . intro b hb
      rw [hcount_eq]
      apply hbest.count_le b hb
    . intro b hb heq
      have hb_le := hbest.value_le b hb (by omega)
      rw [hcount_eq] at hle
      linarith

end LexObjective
