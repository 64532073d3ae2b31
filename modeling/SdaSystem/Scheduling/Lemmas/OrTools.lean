import Mathlib.Algebra.BigOperators.Ring.List
import Mathlib.Algebra.Order.BigOperators.Group.List
import SdaSystem.Library.LexObjective
import SdaSystem.Scheduling.Impl.OrTools

/-!
The meaning of the CP-SAT model: its feasible assignments are the admissible selections of the valid
candidates, and its objective weighs the satellites that a selection covers against its benefit.
-/

open CpSat LexObjective

namespace SdaSystem
namespace ORToolsOptimizer

/--
A selection of valid candidates, given by their indices, that takes at most one pass of a satellite
and no two passes of a station that overlap in whole seconds.
-/
def Admissible (valid : List ValidPass) (sel : Nat → Bool) : Prop :=
  valid.Pairwise fun v w => sel v.index → sel w.index →
    v.pass.noradId ≠ w.pass.noradId
      ∧
    (v.pass.stationId = w.pass.stationId → v.stop ≤ w.start ∨ w.stop ≤ v.start)

def selectedPasses (valid : List ValidPass) (sel : Nat → Bool) : List ValidPass :=
  valid.filter fun v => sel v.index

def satCount (valid : List ValidPass) (sel : Nat → Bool) : Int :=
  (((selectedPasses valid sel).map (·.pass.noradId)).toFinset.card : Int)

def totalBenefit (valid : List ValidPass) (sel : Nat → Bool) : Int :=
  ((selectedPasses valid sel).map (·.benefit)).sum

def passValues (a : Assignment Var) (index : Nat) : Bool :=
  a (.pass index)

section feasible

variable {valid : List ValidPass} {a : Assignment Var}

theorem pairwise_of_length_le_one {r : α → α → Prop} {xs : List α} (h : xs.length ≤ 1)
    : xs.Pairwise r := by
  match xs with
  | [] => simp
  | [x] => simp
  | x :: y :: rest =>
    simp only [List.length_cons] at h
    omega

theorem stationConstraints_hold_iff
    : (∀ c ∈ stationConstraints valid, c.Holds a)
        ↔
      valid.Pairwise fun v w => v.pass.stationId = w.pass.stationId
        → a v.var → a w.var → v.stop ≤ w.start ∨ w.stop ≤ v.start := by
  rw [← forall_group_pairwise_iff]
  unfold stationConstraints
  simp only [List.mem_flatMap, forall_exists_index, and_imp]
  constructor
  . intro h sid hsid
    by_cases hlen : 1 < (group (·.pass.stationId) valid sid).length
    . have := h (.noOverlap ((group (·.pass.stationId) valid sid).map (·.interval))) sid hsid
        (by simp [hlen])
      rw [holds_noOverlap, List.pairwise_map] at this
      apply this
    . apply pairwise_of_length_le_one
      omega
  . intro h c sid hsid hc
    split at hc
    . rw [List.mem_singleton] at hc
      subst hc
      rw [holds_noOverlap, List.pairwise_map]
      apply h sid hsid
    . simp at hc

/-- The satellite variables that are not pass variables have the value that links them to these. -/
def Linked (valid : List ValidPass) (a : Assignment Var) : Prop :=
  ∀ n ∈ groupKeys (·.pass.noradId) valid, (group (·.pass.noradId) valid n).length ≠ 1
    → a (.sat n) = (group (·.pass.noradId) valid n).any fun v => a v.var

theorem satConstraints_hold_iff
    : (∀ c ∈ satConstraints valid, c.Holds a)
        ↔
      (valid.Pairwise fun v w => v.pass.noradId = w.pass.noradId → ¬ (a v.var ∧ a w.var))
        ∧
      Linked valid a := by
  rw [← forall_group_pairwise_iff]
  unfold satConstraints Linked
  simp only [List.mem_flatMap, forall_exists_index, and_imp, List.length_map]
  constructor
  . intro h
    constructor
    . intro n hn
      by_cases hlen : (group (·.pass.noradId) valid n).length = 1
      . apply pairwise_of_length_le_one
        omega
      . have := h (.atMostOne ((group (·.pass.noradId) valid n).map (·.var))) n hn (by simp [hlen])
        rwa [holds_atMostOne, List.pairwise_map] at this
    . intro n hn hlen
      have := h (.maxEquality (.sat n) ((group (·.pass.noradId) valid n).map (·.var))) n hn
        (by simp [hlen])
      rwa [holds_maxEquality, List.any_map] at this
  . rintro ⟨hmost, hlink⟩ c n hn hc
    split at hc
    . simp at hc
    . next hlen =>
      rw [List.mem_pair] at hc
      cases hc with
      | inl hc =>
        subst hc
        rw [holds_atMostOne, List.pairwise_map]
        apply hmost n hn
      | inr hc =>
        subst hc
        rw [holds_maxEquality, List.any_map]
        apply hlink n hn hlen

theorem feasible_iff
    : (buildModel valid).Feasible a ↔ Admissible valid (passValues a) ∧ Linked valid a := by
  have hsplit : (buildModel valid).Feasible a ↔
      (∀ c ∈ stationConstraints valid, c.Holds a) ∧ (∀ c ∈ satConstraints valid, c.Holds a) := by
    unfold CpModel.Feasible buildModel
    simp only [List.mem_append, or_imp, forall_and, List.mem_map, forall_exists_index, and_imp,
      forall_apply_eq_imp_iff₂]
    constructor
    . intro h
      exact ⟨h.left.right, h.right⟩
    . intro h
      refine ⟨⟨?_, h.left⟩, h.right⟩
      -- the bounds are constants that add up
      intro v hv
      rw [holds_interval]
      intro hpresent
      simp [ValidPass.interval, ValidPass.duration]
  rw [hsplit, stationConstraints_hold_iff, satConstraints_hold_iff, ← and_assoc,
    ← List.pairwise_and_iff]
  apply and_congr_left
  intro _
  unfold Admissible passValues
  apply Iff.of_eq
  congr
  funext v w
  simp only [ValidPass.var]
  grind

def assignmentOf (valid : List ValidPass) (sel : Nat → Bool) : Assignment Var
  | .pass index => sel index
  | .sat n => (group (·.pass.noradId) valid n).any fun v => sel v.index

theorem assignmentOf_feasible {sel : Nat → Bool} (h : Admissible valid sel)
    : (buildModel valid).Feasible (assignmentOf valid sel) := by
  rw [feasible_iff]
  refine ⟨h, ?_⟩
  intro n hn hlen
  rfl

end feasible

section objective

variable {valid : List ValidPass} {a : Assignment Var}

theorem sum_map_ite_zero (p : α → Bool) (f : α → Int) (xs : List α)
    : (xs.map fun x => if p x then f x else 0).sum = ((xs.filter p).map f).sum := by
  rw [List.sum_map_ite]
  simp

theorem satVar_eq_any (hlink : Linked valid a) {n : Int} (hn : n ∈ groupKeys (·.pass.noradId) valid)
    : a (satVar valid n) = (group (·.pass.noradId) valid n).any fun v => a v.var := by
  have := hlink n hn
  unfold satVar
  split
  . next v hv => simp [hv]
  . next hne =>
    apply this
    intro hlen
    rw [List.length_eq_one_iff] at hlen
    obtain ⟨v, hv⟩ := hlen
    apply hne v hv

theorem satCount_eq (hlink : Linked valid a)
    : satCount valid (passValues a)
        =
      (((groupKeys (·.pass.noradId) valid).filter fun n => a (satVar valid n)).length : Int) := by
  unfold satCount
  rw [← List.toFinset_card_of_nodup]
  . congr 2
    ext n
    simp only [List.mem_toFinset, List.mem_filter, List.mem_map, selectedPasses]
    constructor
    . rintro ⟨v, ⟨hv, hsel⟩, rfl⟩
      have hkey : v.pass.noradId ∈ groupKeys (·.pass.noradId) valid := by
        rw [mem_groupKeys]
        exact ⟨v, hv, rfl⟩
      refine ⟨hkey, ?_⟩
      rw [satVar_eq_any hlink hkey, List.any_eq_true]
      exact ⟨v, by simpa using hv, hsel⟩
    . rintro ⟨hkey, hsat⟩
      rw [satVar_eq_any hlink hkey, List.any_eq_true] at hsat
      obtain ⟨v, hv, hsel⟩ := hsat
      rw [mem_group] at hv
      exact ⟨v, ⟨hv.left, hsel⟩, hv.right⟩
  . apply List.Nodup.filter
    apply nodup_groupKeys

theorem value_eq (hlink : Linked valid a)
    : (buildModel valid).value a
        =
      satWeight valid * satCount valid (passValues a) + totalBenefit valid (passValues a) := by
  unfold CpModel.value buildModel
  simp only [List.map_append, List.sum_append, List.map_map, Function.comp_def]
  rw [sum_map_ite_zero (fun n => a (satVar valid n)), sum_map_ite_zero (fun v : ValidPass => a v.var)]
  rw [satCount_eq hlink, List.map_const', List.sum_replicate]
  simp only [nsmul_eq_mul]
  unfold totalBenefit selectedPasses
  rw [mul_comm]
  rfl

end objective

section bounds

variable (valid : List ValidPass)

theorem satCount_nonneg (sel : Nat → Bool) : 0 ≤ satCount valid sel := by
  unfold satCount
  omega

theorem satCount_le (sel : Nat → Bool) : satCount valid sel ≤ valid.length := by
  unfold satCount
  have hcard := List.toFinset_card_le ((selectedPasses valid sel).map (·.pass.noradId))
  have hfilter := List.length_filter_le (fun v : ValidPass => sel v.index) valid
  unfold selectedPasses at hcard ⊢
  rw [List.length_map] at hcard
  omega

theorem totalBenefit_le (sel : Nat → Bool)
    : totalBenefit valid sel ≤ (valid.map fun v => max v.benefit 0).sum := by
  unfold totalBenefit selectedPasses
  rw [← sum_map_ite_zero]
  apply List.sum_le_sum
  intro v _
  split <;> simp

end bounds

section lexicographic

variable {valid : List ValidPass}

theorem admissible_none : Admissible valid fun _ => false := by
  apply List.pairwise_of_forall
  intro v w hv
  simp at hv

theorem optimal_iff {a : Assignment Var}
    : (buildModel valid).Optimal a
        ↔
      IsWeightedBest (Admissible valid) (satCount valid) (totalBenefit valid) (satWeight valid)
        (passValues a)
        ∧
      Linked valid a := by
  constructor
  . intro h
    have hfeasible := feasible_iff.mp h.feasible
    refine ⟨⟨hfeasible.left, ?_⟩, hfeasible.right⟩
    intro sel hsel
    have hle := h.value_le _ (assignmentOf_feasible hsel)
    have hlink := (feasible_iff.mp (assignmentOf_feasible hsel)).right
    rwa [value_eq hfeasible.right, value_eq hlink] at hle
  . rintro ⟨h, hlink⟩
    constructor
    . rw [feasible_iff]
      exact ⟨h.isFeasible, hlink⟩
    . intro b hb
      have hfeasible := feasible_iff.mp hb
      rw [value_eq hlink, value_eq hfeasible.right]
      apply h.le
      apply hfeasible.left

theorem forall_optimal_isLexBest_iff (valid : List ValidPass)
    : (∀ a, (buildModel valid).Optimal a
        → IsLexBest (Admissible valid) (satCount valid) (totalBenefit valid) (passValues a))
        ↔
      ∀ best other, IsLexBest (Admissible valid) (satCount valid) (totalBenefit valid) best
        → Admissible valid other → satCount valid other < satCount valid best
        → totalBenefit valid other
            < totalBenefit valid best + satWeight valid * (satCount valid best - satCount valid other)
        := by
  rw [← forall_isLexBest_iff ⟨_, admissible_none⟩ (fun sel _ => satCount_nonneg valid sel)
    (fun sel _ => satCount_le valid sel) (fun sel _ => totalBenefit_le valid sel)]
  constructor
  . intro h sel hsel
    have hlink := (feasible_iff.mp (assignmentOf_feasible hsel.isFeasible)).right
    apply h (assignmentOf valid sel) (optimal_iff.mpr ⟨hsel, hlink⟩)
  . intro h a ha
    apply h
    apply (optimal_iff.mp ha).left

end lexicographic

end ORToolsOptimizer
end SdaSystem
