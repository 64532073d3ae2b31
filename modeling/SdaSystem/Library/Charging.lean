import Mathlib.Algebra.Order.BigOperators.Group.List
import Mathlib.Algebra.Order.Monoid.Unbundled.Pow
import Mathlib.Data.List.Perm.Basic
import SdaSystem.Library.FirstFit
import SdaSystem.Library.Groups

/-!
Comparing a selection with any other one: each entry of the other one is charged to an entry of the
selection that is worth at least as much, and no entry is charged more than some number of times. A
first fit in descending order of worth is charged by what it turns down. Where both fall into the same
groups, it is enough to compare group by group.
-/

namespace Charging

theorem sum_map_filter_add [AddCommMonoid K] (w : β → K) (p : β → Bool) (ys : List β)
    : ((ys.filter p).map w).sum + ((ys.filter fun b => !p b).map w).sum = (ys.map w).sum := by
  rw [← List.sum_append, ← List.map_append]
  apply ((List.filter_append_perm p ys).map w).sum_eq

theorem sum_le_nsmul_sum [AddCommMonoid K] [LinearOrder K] [IsOrderedAddMonoid K] {ys : List β}
    {xs : List α} {w : β → K} {v : α → K} {r : α → β → Bool} {k : Nat}
    (hcharge : ∀ b ∈ ys, ∃ a ∈ xs, r a b ∧ w b ≤ v a) (hfew : ∀ a ∈ xs, ys.countP (r a) ≤ k)
    (hnonneg : ∀ a ∈ xs, 0 ≤ v a)
    : (ys.map w).sum ≤ k • (xs.map v).sum := by
  induction xs generalizing ys with
  | nil =>
    have hys : ys = [] := by
      apply List.eq_nil_iff_forall_not_mem.mpr
      intro b hb
      obtain ⟨a, ha, _⟩ := hcharge b hb
      cases ha
    simp [hys]
  | cons a xs ih =>
    -- what is charged to `a`, and the others
    let here := ys.filter fun b => r a b ∧ w b ≤ v a
    let others := ys.filter fun b => !decide (r a b ∧ w b ≤ v a)
    have hhere : (here.map w).sum ≤ k • v a := by
      calc (here.map w).sum
        _ ≤ (here.map w).length • v a := by
          apply List.sum_le_card_nsmul
          rw [List.forall_mem_map]
          intro b hb
          exact (of_decide_eq_true (List.mem_filter.mp hb).right).right
        _ ≤ k • v a := by
          apply nsmul_le_nsmul_left (hnonneg a List.mem_cons_self)
          rw [List.length_map, ← List.countP_eq_length_filter]
          apply le_trans _ (hfew a List.mem_cons_self)
          apply List.countP_mono_left
          intro b _ hb
          exact (of_decide_eq_true hb).left
    have hothers : (others.map w).sum ≤ k • (xs.map v).sum := by
      apply ih
      . intro b hb
        obtain ⟨hb, hnot⟩ := List.mem_filter.mp hb
        obtain ⟨a', ha', hcharged⟩ := hcharge b hb
        rcases List.mem_cons.mp ha' with rfl | ha'
        . simp [hcharged] at hnot
        . exact ⟨a', ha', hcharged⟩
      . intro a' ha'
        apply le_trans (List.filter_sublist.countP_le) (hfew a' (List.mem_cons_of_mem a ha'))
      . exact fun a' ha' => hnonneg a' (List.mem_cons_of_mem a ha')
    rw [← sum_map_filter_add w fun b => decide (r a b ∧ w b ≤ v a), List.map_cons, List.sum_cons,
      nsmul_add]
    apply add_le_add hhere hothers

theorem sum_map_group [AddCommMonoid K] [DecidableEq κ] (w : α → K) {key : α → κ} {xs : List α}
    {keys : List κ} (hnodup : keys.Nodup) (hkeys : ∀ x ∈ xs, key x ∈ keys)
    : (keys.map fun k => ((group key xs k).map w).sum).sum = (xs.map w).sum := by
  induction keys generalizing xs with
  | nil =>
    have hxs : xs = [] := List.eq_nil_iff_forall_not_mem.mpr fun x hx => List.not_mem_nil (hkeys x hx)
    simp [hxs]
  | cons k keys ih =>
    rw [List.nodup_cons] at hnodup
    let others := xs.filter fun x => !decide (key x = k)
    have hothers : ∀ k' ∈ keys, group key others k' = group key xs k' := by
      intro k' hk'
      unfold group
      rw [List.filter_filter]
      apply List.filter_congr
      intro x _
      rw [Bool.eq_iff_iff, Bool.and_eq_true, Bool.not_eq_true', decide_eq_true_iff,
        decide_eq_false_iff_not]
      apply and_iff_left_of_imp
      rintro rfl rfl
      exact hnodup.left hk'
    have hmem : ∀ x ∈ others, key x ∈ keys := by
      intro x hx
      obtain ⟨hx, hne⟩ := List.mem_filter.mp hx
      rcases List.mem_cons.mp (hkeys x hx) with heq | hin
      . simp [heq] at hne
      . exact hin
    rw [List.map_cons, List.sum_cons, ← sum_map_filter_add w (fun x => decide (key x = k)) xs,
      ← ih hnodup.right hmem]
    congr 2
    apply List.map_congr_left
    intro k' hk'
    rw [hothers k' hk']

theorem sum_le_sum_of_groups [AddCommMonoid K] [Preorder K] [AddLeftMono K] [AddRightMono K]
    [DecidableEq κ] {w : α → K} {key : α → κ} {ys xs : List α} {keys : List κ} (hnodup : keys.Nodup)
    (hys : ∀ y ∈ ys, key y ∈ keys) (hxs : ∀ x ∈ xs, key x ∈ keys)
    (hle : ∀ k ∈ keys, ((group key ys k).map w).sum ≤ ((group key xs k).map w).sum)
    : (ys.map w).sum ≤ (xs.map w).sum := by
  rw [← sum_map_group w hnodup hys, ← sum_map_group w hnodup hxs]
  apply List.sum_le_sum hle

end Charging

namespace FirstFit

variable {r : α → α → Prop} [DecidableRel r]

theorem firstFit_subset (taken xs : List α) : firstFit r taken xs ⊆ xs := by
  induction xs generalizing taken with
  | nil => apply List.Subset.refl
  | cons a rest ih =>
    unfold firstFit
    split
    . apply List.cons_subset_cons a (ih (a :: taken))
    . apply List.subset_cons_of_subset a (ih taken)

theorem firstFit_eq_nil {taken xs : List α} (h : ∀ a ∈ xs, ∃ b ∈ taken, ¬ r b a)
    : firstFit r taken xs = [] := by
  induction xs with
  | nil => rfl
  | cons a rest ih =>
    rw [List.forall_mem_cons] at h
    have hblocked : ¬ ∀ b ∈ taken, r b a := by
      push Not
      apply h.left
    unfold firstFit
    rw [if_neg hblocked, ih h.right]

theorem exists_not_rel [Preorder K] {w : α → K} (taken : List α) {xs : List α}
    (hsorted : xs.Pairwise fun a b => w b ≤ w a) (hirrefl : ∀ a ∈ xs, ¬ r a a) {b : α} (hb : b ∈ xs)
    : (∃ a ∈ taken, ¬ r a b) ∨ ∃ a ∈ firstFit r taken xs, ¬ r a b ∧ w b ≤ w a := by
  induction xs generalizing taken with
  | nil => cases hb
  | cons c rest ih =>
    rw [List.pairwise_cons] at hsorted
    have hrest : ∀ a ∈ rest, ¬ r a a := fun a ha => hirrefl a (List.mem_cons_of_mem c ha)
    unfold firstFit
    rcases List.mem_cons.mp hb with rfl | hb'
    . split
      . exact .inr ⟨b, List.mem_cons_self, hirrefl b List.mem_cons_self, le_refl _⟩
      . next hfits =>
        push Not at hfits
        exact .inl hfits
    . split
      . rcases ih (c :: taken) hsorted.right hrest hb' with ⟨a, ha, hnot⟩ | ⟨a, ha, hnot⟩
        . rcases List.mem_cons.mp ha with rfl | ha
          . exact .inr ⟨a, List.mem_cons_self, hnot, hsorted.left b hb'⟩
          . exact .inl ⟨a, ha, hnot⟩
        . exact .inr ⟨a, List.mem_cons_of_mem c ha, hnot⟩
      . apply ih taken hsorted.right hrest hb'

theorem sum_le_nsmul_sum_firstFit [AddCommMonoid K] [LinearOrder K] [IsOrderedAddMonoid K] {w : α → K}
    {xs ys : List α} {k : Nat} (hsorted : xs.Pairwise fun a b => w b ≤ w a)
    (hirrefl : ∀ a ∈ xs, ¬ r a a) (hsub : ys ⊆ xs)
    (hfew : ∀ a ∈ xs, ys.countP (fun b => ¬ r a b) ≤ k) (hnonneg : ∀ a ∈ xs, 0 ≤ w a)
    : (ys.map w).sum ≤ k • ((firstFit r [] xs).map w).sum := by
  apply Charging.sum_le_nsmul_sum (r := fun a b => decide (¬ r a b))
  . intro b hb
    rcases exists_not_rel [] hsorted hirrefl (hsub hb) with ⟨a, ha, _⟩ | ⟨a, ha, hnot, hle⟩
    . cases ha
    . exact ⟨a, ha, decide_eq_true hnot, hle⟩
  . exact fun a ha => hfew a (firstFit_subset [] xs ha)
  . exact fun a ha => hnonneg a (firstFit_subset [] xs ha)

end FirstFit
