import Mathlib.Algebra.BigOperators.Group.Finset.Basic
import Mathlib.Data.Finset.Sort
import Mathlib.Data.List.Sort

/-!
Stable sorting by a key, as Python's `sorted(xs, key=key)` does it, and the entries of a list at a
set of positions.
-/

def sortedBy [LinearOrder κ] (key : α → κ) (xs : List α) : List α :=
  xs.insertionSort fun a b => key a ≤ key b

open scoped BigOperators

section

variable [LinearOrder κ] (key : α → κ) (xs : List α)

theorem sortedBy_perm : (sortedBy key xs).Perm xs := by
  apply List.perm_insertionSort

@[simp]
theorem mem_sortedBy {a : α} : a ∈ sortedBy key xs ↔ a ∈ xs := by
  apply List.Perm.mem_iff
  apply sortedBy_perm

theorem pairwise_sortedBy : (sortedBy key xs).Pairwise fun a b => key a ≤ key b := by
  have : Std.Total fun a b => key a ≤ key b := ⟨fun a b => le_total (key a) (key b)⟩
  have : IsTrans α fun a b => key a ≤ key b := ⟨fun a b c => le_trans⟩
  apply List.pairwise_insertionSort

variable {key xs}

theorem sortedBy_eq_self (h : xs.Pairwise fun a b => key a ≤ key b) : sortedBy key xs = xs := by
  apply List.Pairwise.insertionSort_eq h

end

/-- The entries of `xs` at the positions in `s`, from the last one to the first. -/
def pickedAt (xs : List α) (s : Finset Nat) : List α :=
  (s.sort (· ≥ ·)).filterMap (xs[·]?)

@[simp]
theorem pickedAt_empty (xs : List α) : pickedAt xs ∅ = [] := by
  simp [pickedAt]

theorem pickedAt_insert {xs : List α} {s : Finset Nat} {i : Nat} (hi : i < xs.length) (hs : ∀ j ∈ s, j < i)
    : pickedAt xs (insert i s) = xs[i] :: pickedAt xs s := by
  unfold pickedAt
  rw [Finset.sort_insert]
  . rw [List.filterMap_cons]
    simp [hi]
  . intro j hj
    apply le_of_lt (hs j hj)
  . intro his
    exact absurd (hs i his) (lt_irrefl i)

theorem filterMap_range_getElem? (xs : List α) : (List.range xs.length).filterMap (xs[·]?) = xs := by
  induction xs with
  | nil => rfl
  | cons x xs ih =>
    rw [List.length_cons, List.range_succ_eq_map, List.filterMap_cons, List.filterMap_map]
    simpa [Function.comp_def] using ih

theorem pickedAt_subperm {xs : List α} {s : Finset Nat} (hs : ∀ i ∈ s, i < xs.length)
    : (pickedAt xs s).Subperm xs := by
  have hperm : (s.sort (· ≥ ·)).Perm ((List.range xs.length).filter (· ∈ s)) := by
    rw [List.perm_ext_iff_of_nodup]
    . intro i
      simp only [Finset.mem_sort, List.mem_filter, List.mem_range, decide_eq_true_eq]
      constructor
      . intro hi
        exact ⟨hs i hi, hi⟩
      . intro hi
        apply hi.right
    . apply Finset.sort_nodup
    . apply List.Nodup.filter
      apply List.nodup_range
  have hsub : (((List.range xs.length).filter (· ∈ s)).filterMap (xs[·]?)).Sublist xs := by
    conv => rhs; rw [← filterMap_range_getElem? xs]
    apply List.Sublist.filterMap
    apply List.filter_sublist
  unfold pickedAt
  exact ⟨_, (hperm.filterMap _).symm, hsub⟩

theorem pairwise_pickedAt {xs : List α} {s : Finset Nat} {r : α → α → Prop}
    (h : ∀ i ∈ s, ∀ j ∈ s, i ≠ j → ∀ a b, xs[i]? = some a → xs[j]? = some b → r a b)
    : (pickedAt xs s).Pairwise r := by
  unfold pickedAt
  rw [List.pairwise_filterMap]
  apply List.Nodup.pairwise_of_forall_ne
  . apply Finset.sort_nodup
  . intro i hi j hj hij a ha b hb
    rw [Finset.mem_sort] at hi hj
    apply h i hi j hj hij a b ha hb

theorem sum_map_pickedAt [AddCommMonoid K] {xs : List α} {s : Finset Nat} (hs : ∀ i ∈ s, i < xs.length)
    (weight : α → K) : ((pickedAt xs s).map weight).sum = ∑ i ∈ s, (xs.map weight).getD i 0 := by
  have hsort : ∀ is : List Nat, (∀ i ∈ is, i < xs.length)
      → (is.filterMap (xs[·]?)).map weight = is.map fun i => (xs.map weight).getD i 0 := by
    intro is his
    induction is with
    | nil => rfl
    | cons i is ih =>
      have hi := his i (by simp)
      rw [List.filterMap_cons, List.getElem?_eq_getElem hi]
      simp only [List.map_cons]
      rw [ih]
      . simp [hi]
      . intro j hj
        apply his j (by simp [hj])
  unfold pickedAt
  rw [hsort _ (by simpa using hs), ← List.sum_toFinset _ (Finset.sort_nodup _ _), Finset.sort_toFinset]

theorem exists_perm_pickedAt {xs ys : List α} (h : ys.Subperm xs)
    : ∃ s : Finset Nat, (∀ i ∈ s, i < xs.length) ∧ ys.Perm (pickedAt xs s) := by
  obtain ⟨zs, hperm, hsub⟩ := h
  obtain ⟨is, rfl, his⟩ := List.sublist_eq_map_getElem hsub
  have hnodup : (is.map Fin.val).Nodup := by
    apply List.Nodup.map Fin.val_injective
    apply his.imp fun hlt => ne_of_lt hlt
  refine ⟨(is.map Fin.val).toFinset, ?_, ?_⟩
  . simp
  . apply hperm.symm.trans
    have hsort : ((is.map Fin.val).toFinset.sort (· ≥ ·)).Perm (is.map Fin.val) := by
      rw [List.perm_ext_iff_of_nodup (Finset.sort_nodup _ _) hnodup]
      simp
    unfold pickedAt
    refine List.Perm.trans ?_ (hsort.filterMap _).symm
    rw [List.filterMap_map]
    simp

theorem rel_of_pairwise_pickedAt {xs : List α} {s : Finset Nat} {r : α → α → Prop}
    (hsymm : ∀ a b, r a b → r b a) (h : (pickedAt xs s).Pairwise r) {i j : Nat}
    (hi : i ∈ s) (hj : j ∈ s) (hij : i ≠ j) (hilen : i < xs.length) (hjlen : j < xs.length)
    : r xs[i] xs[j] := by
  unfold pickedAt at h
  rw [List.pairwise_filterMap] at h
  have : Std.Symm fun i j : Nat => ∀ a, xs[i]? = some a → ∀ b, xs[j]? = some b → r a b := by
    constructor
    intro i j hr a ha b hb
    apply hsymm
    apply hr b hb a ha
  have hrel := h.forall (by simpa using hi) (by simpa using hj) hij
  apply hrel
  . apply List.getElem?_eq_getElem
  . apply List.getElem?_eq_getElem
