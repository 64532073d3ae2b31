import Mathlib.Data.List.Nodup
import Mathlib.Order.Lattice

/-!
Lists that are read in pages, where each page is cut out of an order of its own. All orders are
sorted by one key, so they can only differ where keys are equal.
-/

namespace Pages

variable {α : Type}

def pageOf (size k : Nat) (xs : List α) : List α :=
  (xs.drop (k * size)).take size

def pagesOf (size n : Nat) (orders : Nat → List α) : List α :=
  (List.range n).flatMap fun k => pageOf size k (orders k)

theorem take_append_pageOf (size k : Nat) (xs : List α)
    : xs.take (k * size) ++ pageOf size k xs = xs.take ((k + 1) * size) := by
  unfold pageOf
  rw [Nat.add_one_mul, List.take_add]

theorem pagesOf_succ (size n : Nat) (orders : Nat → List α)
    : pagesOf size (n + 1) orders = pagesOf size n orders ++ pageOf size n (orders n) := by
  simp [pagesOf, List.range_succ]

theorem mem_pageOf {size k i : Nat} {xs : List α} {a : α} (h : xs[k * size + i]? = some a)
    (hi : i < size) : a ∈ pageOf size k xs := by
  unfold pageOf
  apply List.mem_of_getElem? (i := i)
  rw [List.getElem?_take_of_lt hi, List.getElem?_drop, h]

section sorted

variable {κ : Type} [LinearOrder κ] {key : α → κ} {xs ys : List α}

structure Ordering (key : α → κ) (xs ys : List α) : Prop where
  perm : ys.Perm xs
  sorted : ys.Pairwise fun a b => key a ≤ key b

/-- The keys at position `i` and at the next one differ. -/
def StepsAt (key : α → κ) (xs : List α) (i : Nat) : Prop :=
  ∀ a b, xs[i]? = some a → xs[i + 1]? = some b → key a < key b

theorem filter_le_eq_take (h : xs.Pairwise fun a b => key a ≤ key b) (c : κ)
    : xs.filter (fun a => key a ≤ c) = xs.take (xs.filter fun a => key a ≤ c).length := by
  induction xs with
  | nil => rfl
  | cons a xs ih =>
    obtain ⟨hle, hrest⟩ := List.pairwise_cons.mp h
    by_cases ha : key a ≤ c
    . rw [List.filter_cons_of_pos (by simpa using ha), List.length_cons, List.take_succ_cons,
        ← ih hrest]
    . have hnone : (a :: xs).filter (fun a => key a ≤ c) = [] := by
        rw [List.filter_eq_nil_iff]
        intro b hb
        rw [decide_eq_true_iff, not_le]
        cases List.mem_cons.mp hb with
        | inl heq => rw [heq]; exact not_le.mp ha
        | inr hb => exact lt_of_lt_of_le (not_le.mp ha) (hle b hb)
      rw [hnone]
      rfl

theorem length_filter_le (h : xs.Pairwise fun a b => key a ≤ key b) {i : Nat} {a : α}
    (ha : xs[i]? = some a) (hstep : StepsAt key xs i)
    : (xs.filter fun b => key b ≤ key a).length = i + 1 := by
  obtain ⟨hi, hget⟩ := List.getElem?_eq_some_iff.mp ha
  have htake : (xs.take (i + 1)).filter (fun b => key b ≤ key a) = xs.take (i + 1) := by
    rw [List.filter_eq_self]
    intro b hb
    obtain ⟨j, hj, rfl⟩ := List.mem_take_iff_getElem.mp hb
    rw [decide_eq_true_iff, ← hget]
    cases Nat.eq_or_lt_of_le (show j ≤ i by omega) with
    | inl heq => simp [heq]
    | inr hlt => apply List.pairwise_iff_getElem.mp h j i _ hi hlt
  have hdrop : (xs.drop (i + 1)).filter (fun b => key b ≤ key a) = [] := by
    rw [List.filter_eq_nil_iff]
    intro b hb
    obtain ⟨j, hj, rfl⟩ := List.mem_drop_iff_getElem.mp hb
    rw [decide_eq_true_iff, not_le]
    have hnext : i + 1 < xs.length := by omega
    have hlt := hstep a xs[i + 1] ha (List.getElem?_eq_getElem hnext)
    cases Nat.eq_zero_or_pos j with
    | inl hzero => simpa [hzero] using hlt
    | inr hpos =>
      apply lt_of_lt_of_le hlt
      apply List.pairwise_iff_getElem.mp h (i + 1) (i + 1 + j) hnext _ (by omega)
  rw [← List.take_append_drop (i + 1) xs, List.filter_append, htake, hdrop, List.append_nil,
    List.length_take]
  omega

theorem Ordering.take_perm (h : Ordering key xs ys) (hxs : xs.Pairwise fun a b => key a ≤ key b)
    {i : Nat} (hstep : StepsAt key xs i) : (ys.take (i + 1)).Perm (xs.take (i + 1)) := by
  cases ha : xs[i]? with
  | none =>
    rw [List.getElem?_eq_none_iff] at ha
    have hlength := h.perm.length_eq
    rw [List.take_of_length_le (by omega), List.take_of_length_le (by omega)]
    exact h.perm
  | some a =>
    have hfilter := h.perm.filter fun b => key b ≤ key a
    have hlength := length_filter_le hxs ha hstep
    have hlength' := hfilter.length_eq.trans hlength
    rw [filter_le_eq_take hxs, filter_le_eq_take h.sorted, hlength, hlength'] at hfilter
    exact hfilter

theorem Ordering.pageOf_perm (h : Ordering key xs ys) (hxs : xs.Pairwise fun a b => key a ≤ key b)
    {size : Nat} (hsize : 0 < size) (hsteps : ∀ k, StepsAt key xs ((k + 1) * size - 1)) (k : Nat)
    : (pageOf size k ys).Perm (pageOf size k xs) := by
  have htake : ∀ k, (ys.take (k * size)).Perm (xs.take (k * size)) := by
    intro k
    cases k with
    | zero => simp
    | succ k =>
      have := h.take_perm hxs (hsteps k)
      rwa [Nat.sub_add_cancel (Nat.mul_pos (Nat.succ_pos k) hsize)] at this
  have hnext := htake (k + 1)
  rw [← take_append_pageOf, ← take_append_pageOf] at hnext
  have := (htake k).symm.append_right (pageOf size k ys)
  exact (List.perm_append_left_iff _).mp (this.trans hnext)

/-- If the keys differ wherever a page ends, it does not matter which order each page is cut from. -/
theorem pagesOf_perm (hxs : xs.Pairwise fun a b => key a ≤ key b) {size : Nat} (hsize : 0 < size)
    (hsteps : ∀ k, StepsAt key xs ((k + 1) * size - 1)) {orders : Nat → List α}
    (h : ∀ k, Ordering key xs (orders k)) (n : Nat)
    : (pagesOf size n orders).Perm (xs.take (n * size)) := by
  induction n with
  | zero => simp [pagesOf]
  | succ n ih =>
    rw [pagesOf_succ, ← take_append_pageOf]
    apply ih.append ((h n).pageOf_perm hxs hsize hsteps n)

theorem ordering_swap (hxs : xs.Pairwise fun a b => key a ≤ key b) {i : Nat}
    (hi : i + 1 < xs.length) (htie : key xs[i] = key xs[i + 1])
    : Ordering key xs ((xs.set i xs[i + 1]).set (i + 1) xs[i]) := by
  constructor
  case perm => apply List.set_set_perm (by omega) hi
  case sorted =>
    have hkeys : ((xs.set i xs[i + 1]).set (i + 1) xs[i]).map key = xs.map key := by
      apply List.ext_getElem
      . simp
      . intro j hj hj'
        rw [List.getElem_map, List.getElem_map, List.getElem_set, List.getElem_set]
        split
        . next heq => simp [← heq, htie]
        . split
          . next heq => simp [← heq, htie]
          . rfl
    rw [← List.pairwise_map (f := key) (R := (· ≤ ·)), hkeys, List.pairwise_map]
    exact hxs

/-- If the keys are equal where a page ends, there are orders that show one entry twice. -/
theorem exists_not_nodup_pagesOf (hxs : xs.Pairwise fun a b => key a ≤ key b) {size k : Nat}
    (hsize : 0 < size) (htie : ¬ StepsAt key xs ((k + 1) * size - 1))
    : ∃ orders : Nat → List α, (∀ k, Ordering key xs (orders k))
        ∧ ∀ n, xs.length ≤ n * size → ¬ (pagesOf size n orders).Nodup := by
  have hpos : 0 < (k + 1) * size := Nat.mul_pos (Nat.succ_pos k) hsize
  have hlast : (k + 1) * size - 1 = k * size + (size - 1) := by
    rw [Nat.add_one_mul]
    omega
  have hfirst : (k + 1) * size = (k + 1) * size - 1 + 1 := by omega
  generalize (k + 1) * size - 1 = i at *
  unfold StepsAt at htie
  push Not at htie
  obtain ⟨a, b, ha, hb, hle⟩ := htie
  obtain ⟨hi, rfl⟩ := List.getElem?_eq_some_iff.mp hb
  obtain ⟨_, rfl⟩ := List.getElem?_eq_some_iff.mp ha
  have htie := le_antisymm (List.pairwise_iff_getElem.mp hxs _ _ _ hi (Nat.lt_succ_self _)) hle
  -- The entry at the end of page `k` moves to the beginning of the next one.
  let swapped := (xs.set i xs[i + 1]).set (i + 1) xs[i]
  refine ⟨fun k' => if k' ≤ k then xs else swapped, ?_, ?_⟩
  . intro k'
    dsimp only
    split
    . exact ⟨List.Perm.refl xs, hxs⟩
    . apply ordering_swap hxs hi htie
  . intro n hn hnodup
    have hlt : k + 1 < n := by
      apply Nat.lt_of_mul_lt_mul_right (a := size)
      omega
    have hdisjoint := List.pairwise_iff_getElem.mp (List.nodup_flatMap.mp hnodup).right k (k + 1)
      (by simpa using Nat.lt_of_succ_lt hlt) (by simpa using hlt) (Nat.lt_succ_self k)
    rw [List.getElem_range, List.getElem_range] at hdisjoint
    apply @hdisjoint xs[i]
    . dsimp only
      rw [if_pos (Nat.le_refl k)]
      apply mem_pageOf (i := size - 1)
      . rw [← hlast, ha]
      . omega
    . dsimp only
      rw [if_neg (by omega)]
      apply mem_pageOf (i := 0) _ hsize
      rw [Nat.add_zero, hfirst]
      apply List.getElem?_set_self
      simpa using hi

end sorted

end Pages
