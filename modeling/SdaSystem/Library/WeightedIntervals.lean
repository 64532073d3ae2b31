import Mathlib.Algebra.BigOperators.Group.Finset.Basic
import Mathlib.Data.Nat.Find
import Mathlib.Order.Monotone.Basic

/-!
Weighted interval selection over an arbitrary time line: `n` half-open intervals, listed in the order
in which they finish, of which a pairwise compatible set of greatest worth is wanted. What a set is worth
is added up from its first interval on, by an addition that need only be monotone, such as that of
floats. A table `dp` that obeys the usual recurrence bounds the worth of every selection, and walking it
back from `n` reaches one best selection.
-/

open Finset

namespace WeightedIntervals

variable {τ K : Type*} [LinearOrder τ] [Zero K]
variable (start finish : ℕ → τ) (add : ℕ → K → K)

def Compatible (i j : ℕ) : Prop :=
  finish i ≤ start j ∨ finish j ≤ start i

structure IsSelection (n : ℕ) (s : Finset ℕ) : Prop where
  lt : ∀ i ∈ s, i < n
  compatible : ∀ i ∈ s, ∀ j ∈ s, i ≠ j → Compatible start finish i j

def total (s : Finset ℕ) (n : ℕ) : K :=
  match n with
  | 0 => 0
  | n + 1 => if n ∈ s then add n (total s n) else total s n

section total

variable {add} {s t : Finset ℕ} {m n : ℕ}

theorem total_succ : total add s (n + 1) = if n ∈ s then add n (total add s n) else total add s n :=
  rfl

theorem total_congr (h : ∀ i < n, i ∈ s ↔ i ∈ t) : total add s n = total add t n := by
  induction n with
  | zero => rfl
  | succ n ih =>
    rw [total_succ, total_succ, ih fun i hi => h i (by omega)]
    simp only [h n (Nat.lt_succ_self n)]

theorem total_eq_of_forall_notMem (hmn : m ≤ n) (h : ∀ i, m ≤ i → i < n → i ∉ s)
    : total add s n = total add s m := by
  induction n, hmn using Nat.le_induction with
  | base => rfl
  | succ n hmn ih =>
    rw [total_succ, if_neg (h n hmn (Nat.lt_succ_self n))]
    apply ih
    intro i hi hin
    apply h i hi (by omega)

theorem total_eq_of_forall_lt (hmn : m ≤ n) (h : ∀ i ∈ s, i < m) : total add s n = total add s m := by
  apply total_eq_of_forall_notMem hmn
  intro i hi _ his
  have := h i his
  omega

theorem total_insert_of_le (hmn : m ≤ n) : total add (insert n s) m = total add s m := by
  apply total_congr
  intro i hi
  rw [mem_insert, or_iff_right]
  omega

theorem total_insert_succ : total add (insert n s) (n + 1) = add n (total add s n) := by
  rw [total_succ, if_pos (mem_insert_self n s), total_insert_of_le (le_refl n)]

theorem total_erase : total add (s.erase n) n = total add s n := by
  apply total_congr
  intro i hi
  rw [mem_erase, and_iff_right (by omega)]

theorem total_filter : total add (s.filter (· < m)) m = total add s m := by
  apply total_congr
  intro i hi
  rw [mem_filter, and_iff_left hi]

theorem total_eq_sum {M : Type*} [AddCommMonoid M] (weight : ℕ → M) (h : ∀ i ∈ s, i < n)
    : total (fun i x => weight i + x) s n = ∑ i ∈ s, weight i := by
  induction n generalizing s with
  | zero =>
    have : s = ∅ := by
      apply eq_empty_of_forall_notMem
      intro i hi
      exact absurd (h i hi) (Nat.not_lt_zero i)
    rw [this]
    rfl
  | succ n ih =>
    have hlt : ∀ i ∈ s.erase n, i < n := by
      intro i hi
      rw [mem_erase] at hi
      have := h i hi.right
      omega
    rw [total_succ, ← total_erase, ih hlt]
    split
    . next hn => rw [add_sum_erase s weight hn]
    . next hn => rw [erase_eq_of_notMem hn]

end total

variable [LinearOrder K]

structure IsBest (n : ℕ) (s : Finset ℕ) : Prop extends IsSelection start finish n s where
  total_le : ∀ t, IsSelection start finish n t → total add t n ≤ total add s n

/--
The best selection in which what comes before each member is best among the selections that leave room
for it, and no selection of earlier intervals is worth as much as the member with what comes before.
-/
structure IsFirstBest (n : ℕ) (s : Finset ℕ) : Prop extends IsBest start finish add n s where
  rest_best : ∀ i ∈ s, ∀ t, IsSelection start finish i t → (∀ j ∈ t, Compatible start finish j i)
    → total add t i ≤ total add s i
  needed : ∀ i ∈ s, ∀ t, IsSelection start finish i t → total add t i < total add s (i + 1)

/--
The data of the recurrence: `prev i` counts the intervals that are over when `i` begins, and `dp i`
is the value of the first `i` intervals.
-/
structure Recurrence (n : ℕ) (prev : ℕ → ℕ) (dp : ℕ → K) : Prop where
  add_mono : ∀ i, Monotone (add i)
  start_lt : ∀ i < n, start i < finish i
  finish_mono : ∀ i j, i ≤ j → j < n → finish i ≤ finish j
  lt_prev_iff : ∀ i < n, ∀ j < n, j < prev i ↔ finish j ≤ start i
  prev_le : ∀ i < n, prev i ≤ n
  dp_zero : dp 0 = 0
  dp_succ : ∀ i < n, dp (i + 1) = max (add i (dp (prev i))) (dp i)

variable {start finish add}

theorem IsSelection.mono {n m : ℕ} {s : Finset ℕ} (h : IsSelection start finish n s) (hnm : n ≤ m)
    : IsSelection start finish m s where
  lt := by
    intro i hi
    have := h.lt i hi
    omega
  compatible := h.compatible

theorem IsSelection.filter {n : ℕ} {s : Finset ℕ} (h : IsSelection start finish n s) (m : ℕ)
    : IsSelection start finish m (s.filter (· < m)) where
  lt := by
    intro i hi
    exact (mem_filter.mp hi).right
  compatible := by
    intro i hi j hj
    apply h.compatible i (mem_filter.mp hi).left j (mem_filter.mp hj).left

theorem isSelection_of_not_mem {n : ℕ} {s : Finset ℕ} (h : IsSelection start finish (n + 1) s)
    (hn : n ∉ s) : IsSelection start finish n s where
  lt := by
    intro i hi
    have := h.lt i hi
    have : i ≠ n := by
      rintro rfl
      apply hn hi
    omega
  compatible := h.compatible

theorem IsFirstBest.not_mem_of_last {n k : ℕ} {s t : Finset ℕ} (hs : IsFirstBest start finish add n s)
    (ht : IsFirstBest start finish add n t) (hk : k ∈ s)
    (hlater : ∀ i, k < i → (i ∈ s ↔ i ∈ t)) : k ∈ t := by
  by_contra hkt
  have hneeded := hs.needed k hk _ (ht.filter k)
  rw [total_filter] at hneeded
  have hkn := hs.lt k hk
  -- the first interval after `k`, if there is one
  by_cases hafter : ∃ i, k < i ∧ i ∈ s
  . obtain ⟨hki, his⟩ := Nat.find_spec hafter
    have hbetween : ∀ j, k < j → j < Nat.find hafter → j ∉ s :=
      fun j hkj hji hjs => Nat.find_min hafter hji ⟨hkj, hjs⟩
    generalize Nat.find hafter = i at *
    have hle := ht.rest_best i ((hlater i hki).mp his) _ (hs.filter i) ?_
    . rw [total_filter,
        total_eq_of_forall_notMem (show k + 1 ≤ i by omega) fun j hj hji => hbetween j (by omega) hji,
        total_eq_of_forall_notMem (show k ≤ i by omega)] at hle
      . exact absurd hneeded (not_lt_of_ge hle)
      . intro j hj hji hjt
        rcases Nat.eq_or_lt_of_le hj with rfl | hkj
        . exact hkt hjt
        . exact hbetween j hkj hji ((hlater j hkj).mpr hjt)
    . intro j hj
      rw [mem_filter] at hj
      apply hs.compatible j hj.left i his
      omega
  . have hnone : ∀ j, k < j → j ∉ s := fun j hkj hjs => hafter ⟨j, hkj, hjs⟩
    have hle := ht.total_le s hs.toIsSelection
    rw [total_eq_of_forall_notMem (show k + 1 ≤ n by omega) fun j hj _ => hnone j (by omega),
      total_eq_of_forall_notMem (show k ≤ n by omega)] at hle
    . exact absurd hneeded (not_lt_of_ge hle)
    . intro j hj _ hjt
      rcases Nat.eq_or_lt_of_le hj with rfl | hkj
      . exact hkt hjt
      . exact hnone j hkj ((hlater j hkj).mpr hjt)

theorem IsFirstBest.unique {n : ℕ} {s t : Finset ℕ} (hs : IsFirstBest start finish add n s)
    (ht : IsFirstBest start finish add n t) : s = t := by
  have hagree : ∀ d k, n ≤ k + d → (k ∈ s ↔ k ∈ t) := by
    intro d
    induction d with
    | zero =>
      intro k hk
      apply iff_of_false
      . intro hks
        have := hs.lt k hks
        omega
      . intro hkt
        have := ht.lt k hkt
        omega
    | succ d ih =>
      intro k hk
      have hlater : ∀ i, k < i → (i ∈ s ↔ i ∈ t) := fun i hi => ih i (by omega)
      constructor
      . intro hks
        apply hs.not_mem_of_last ht hks hlater
      . intro hkt
        apply ht.not_mem_of_last hs hkt
        intro i hi
        exact (hlater i hi).symm
  ext k
  apply hagree n k (by omega)

namespace Recurrence

variable {n : ℕ} {prev : ℕ → ℕ} {dp : ℕ → K}

theorem prev_le_self (h : Recurrence start finish add n prev dp) {i : ℕ} (hi : i < n)
    : prev i ≤ i := by
  by_contra hlt
  have hfin := (h.lt_prev_iff i hi i hi).mp (by omega)
  exact absurd (h.start_lt i hi) (not_lt_of_ge hfin)

theorem isSelection_prev (h : Recurrence start finish add n prev dp) {i : ℕ} (hi : i < n)
    {s : Finset ℕ} (hs : IsSelection start finish i s) (hroom : ∀ j ∈ s, Compatible start finish j i)
    : IsSelection start finish (prev i) s where
  lt := by
    intro j hj
    have hji := hs.lt j hj
    rw [h.lt_prev_iff i hi j (by omega)]
    rcases hroom j hj with hc | hc
    . assumption
    . have hle := h.finish_mono j i (by omega) hi
      have hlt := h.start_lt j (by omega)
      exact absurd hlt (not_lt_of_ge (le_trans hle hc))
  compatible := hs.compatible

theorem isSelection_erase (h : Recurrence start finish add n prev dp) {i : ℕ} (hi : i < n)
    {s : Finset ℕ} (hs : IsSelection start finish (i + 1) s) (his : i ∈ s)
    : IsSelection start finish (prev i) (s.erase i) := by
  apply h.isSelection_prev hi
  . constructor
    . intro j hj
      rw [mem_erase] at hj
      have := hs.lt j hj.right
      omega
    . intro j hj k hk
      apply hs.compatible j (mem_of_mem_erase hj) k (mem_of_mem_erase hk)
  . intro j hj
    rw [mem_erase] at hj
    apply hs.compatible j hj.right i his hj.left

theorem isSelection_insert (h : Recurrence start finish add n prev dp) {i : ℕ} (hi : i < n)
    {s : Finset ℕ} (hs : IsSelection start finish (prev i) s)
    : IsSelection start finish (i + 1) (insert i s) where
  lt := by
    intro j hj
    rw [mem_insert] at hj
    rcases hj with rfl | hj
    . omega
    . have := hs.lt j hj
      have := h.prev_le_self hi
      omega
  compatible := by
    have hover : ∀ j ∈ s, finish j ≤ start i := by
      intro j hj
      have hjp := hs.lt j hj
      have := h.prev_le i hi
      apply (h.lt_prev_iff i hi j (by omega)).mp hjp
    intro j hj k hk hjk
    rw [mem_insert] at hj hk
    rcases hj with rfl | hj
    . rcases hk with rfl | hk
      . exact absurd rfl hjk
      . exact Or.inr (hover k hk)
    . rcases hk with rfl | hk
      . exact Or.inl (hover j hj)
      . apply hs.compatible j hj k hk hjk

theorem total_le_dp (h : Recurrence start finish add n prev dp) (i : ℕ) (hi : i ≤ n)
    (s : Finset ℕ) (hs : IsSelection start finish i s) : total add s i ≤ dp i := by
  -- a selection without its last interval is one among the first `prev i`, not the first `i - 1`
  induction i using Nat.strong_induction_on generalizing s with
  | _ i ih =>
    cases i with
    | zero => rw [total, h.dp_zero]
    | succ i =>
      rw [h.dp_succ i (by omega)]
      by_cases his : i ∈ s
      . have hsel := h.isSelection_erase (by omega) hs his
        have hle : prev i ≤ i := h.prev_le_self (by omega)
        have hprev := ih (prev i) (by omega) (by omega) (s.erase i) hsel
        rw [← total_eq_of_forall_lt hle hsel.lt, total_erase] at hprev
        rw [total_succ, if_pos his]
        apply le_max_of_le_left
        apply h.add_mono i hprev
      . rw [total_succ, if_neg his]
        apply le_max_of_le_right
        apply ih i (by omega) (by omega) s (isSelection_of_not_mem hs his)

theorem isBest_of_total_eq (h : Recurrence start finish add n prev dp) {i : ℕ} (hi : i ≤ n)
    {s : Finset ℕ} (hs : IsSelection start finish i s) (htotal : total add s i = dp i)
    : IsBest start finish add i s := by
  refine ⟨hs, ?_⟩
  intro t ht
  rw [htotal]
  apply h.total_le_dp i hi t ht

theorem isFirstBest_zero (h : Recurrence start finish add n prev dp)
    : IsFirstBest start finish add 0 ∅ ∧ total add ∅ 0 = dp 0 := by
  have hsel : IsSelection start finish 0 ∅ := by
    constructor
    . simp
    . simp
  have htotal : total add ∅ 0 = dp 0 := h.dp_zero.symm
  exact ⟨⟨h.isBest_of_total_eq (Nat.zero_le n) hsel htotal, by simp, by simp⟩, htotal⟩

theorem isFirstBest_skip (h : Recurrence start finish add n prev dp) {i : ℕ} (hi : i < n)
    (hdp : dp (i + 1) = dp i) {s : Finset ℕ} (hs : IsFirstBest start finish add i s)
    (htotal : total add s i = dp i)
    : IsFirstBest start finish add (i + 1) s ∧ total add s (i + 1) = dp (i + 1) := by
  have htotal' : total add s (i + 1) = dp (i + 1) := by
    rw [total_eq_of_forall_lt (Nat.le_succ i) hs.lt, htotal, hdp]
  refine ⟨⟨?_, hs.rest_best, hs.needed⟩, htotal'⟩
  apply h.isBest_of_total_eq (by omega) (hs.mono (Nat.le_succ i)) htotal'

theorem isFirstBest_take (h : Recurrence start finish add n prev dp) {i : ℕ} (hi : i < n)
    (hdp : dp (i + 1) ≠ dp i) {s : Finset ℕ}
    (hs : IsFirstBest start finish add (prev i) s) (htotal : total add s (prev i) = dp (prev i))
    : IsFirstBest start finish add (i + 1) (insert i s)
        ∧
      total add (insert i s) (i + 1) = dp (i + 1) := by
  have hle := h.prev_le_self hi
  have hprev := h.prev_le i hi
  have hgrow : dp i < dp (i + 1) := by
    apply lt_of_le_of_ne _ (Ne.symm hdp)
    rw [h.dp_succ i hi]
    apply le_max_right
  have hvalue : dp (i + 1) = add i (dp (prev i)) := by
    rw [h.dp_succ i hi] at hgrow ⊢
    rcases max_choice (add i (dp (prev i))) (dp i) with hmax | hmax
    . assumption
    . rw [hmax] at hgrow
      exact absurd hgrow (lt_irrefl _)
  have hrest : total add s i = dp (prev i) := by
    rw [total_eq_of_forall_lt hle hs.lt, htotal]
  have hins : total add (insert i s) (i + 1) = dp (i + 1) := by
    rw [total_insert_succ, hrest, hvalue]
  have hbest := h.isBest_of_total_eq (by omega) (h.isSelection_insert hi hs.toIsSelection) hins
  refine ⟨⟨hbest, ?_, ?_⟩, hins⟩
  . intro j hj t ht hroom
    rw [mem_insert] at hj
    rcases hj with rfl | hj
    . have ht' := h.isSelection_prev hi ht hroom
      rw [total_insert_of_le (le_refl j), hrest, total_eq_of_forall_lt hle ht'.lt]
      apply h.total_le_dp (prev j) hprev t ht'
    . have := hs.lt j hj
      rw [total_insert_of_le (by omega)]
      apply hs.rest_best j hj t ht hroom
  . intro j hj t ht
    rw [mem_insert] at hj
    rcases hj with rfl | hj
    . rw [hins]
      apply lt_of_le_of_lt _ hgrow
      apply h.total_le_dp j (by omega) t ht
    . have := hs.lt j hj
      rw [total_insert_of_le (by omega)]
      apply hs.needed j hj t ht

end Recurrence

end WeightedIntervals
