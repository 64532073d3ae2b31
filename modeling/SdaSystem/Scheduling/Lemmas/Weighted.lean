import Mathlib.Algebra.Order.Ring.Rat
import SdaSystem.Library.WeightedIntervals
import SdaSystem.Scheduling.Impl.Greedy

/-!
`scheduleWeighted` returns the first best selection of its input. The sorted passes are read as a
family of weighted intervals; the table that the forward loop fills obeys the recurrence of that
family, and the backward loop walks the first best selection. With exact benefits, that selection has
the greatest total benefit.
-/

open WeightedIntervals

namespace SdaSystem
namespace GreedyScheduler
namespace scheduleWeighted

def rise (sortedPasses : List SatellitePass) (i : Nat) : Int :=
  (sortedPasses.map (·.riseTime)).getD i 0

def set (sortedPasses : List SatellitePass) (i : Nat) : Int :=
  (sortedPasses.map (·.setTime)).getD i 0

def worth (fl : Rat → Rat) (sortedPasses : List SatellitePass) (i : Nat) : Rat :=
  (sortedPasses.map fun p => fl (benefit p)).getD i 0

def add (fl : Rat → Rat) (sortedPasses : List SatellitePass) (i : Nat) (x : Rat) : Rat :=
  fl (worth fl sortedPasses i + x)

variable {fl : Rat → Rat} {sortedPasses : List SatellitePass}

theorem add_mono (hfl : Monotone fl) (i : Nat) : Monotone (add fl sortedPasses i) := by
  intro x y h
  apply hfl
  apply add_le_add_right h

theorem rise_eq {i : Nat} (hi : i < sortedPasses.length)
    : rise sortedPasses i = sortedPasses[i].riseTime := by
  simp [rise, hi]

theorem set_eq {i : Nat} (hi : i < sortedPasses.length)
    : set sortedPasses i = sortedPasses[i].setTime := by
  simp [set, hi]

def before (sortedPasses : List SatellitePass) (i : Nat) : Nat :=
  (prev sortedPasses i + 1).toNat

theorem before_eq {i : Nat} (hi : i < sortedPasses.length)
    : before sortedPasses i
        =
      Bisect.right (sortedPasses.map (·.setTime)) sortedPasses[i].riseTime := by
  simp [before, prev, hi]

section forward

def dpUpTo (fl : Rat → Rat) (sortedPasses : List SatellitePass) (k : Nat) : List Rat :=
  (List.range k).foldl (forward fl sortedPasses) (List.replicate (sortedPasses.length + 1) 0)

theorem dpUpTo_succ (k : Nat)
    : dpUpTo fl sortedPasses (k + 1) = forward fl sortedPasses (dpUpTo fl sortedPasses k) k := by
  simp [dpUpTo, List.range_succ]

@[simp]
theorem length_dpUpTo (k : Nat) : (dpUpTo fl sortedPasses k).length = sortedPasses.length + 1 := by
  induction k with
  | zero => simp [dpUpTo]
  | succ k ih =>
    rw [dpUpTo_succ]
    simpa [forward] using ih

theorem dpUpTo_succ_of_le {k : Nat} (i : Nat) (hik : i ≤ k)
    : (dpUpTo fl sortedPasses (k + 1)).getD i 0 = (dpUpTo fl sortedPasses k).getD i 0 := by
  rw [dpUpTo_succ]
  unfold forward
  have : k + 1 ≠ i := by omega
  simp only [List.getD_eq_getElem?_getD, List.getElem?_set, this, ↓reduceIte]

theorem dpUpTo_succ_self {k : Nat} (hk : k < sortedPasses.length)
    : (dpUpTo fl sortedPasses (k + 1)).getD (k + 1) 0
        =
      max
        (add fl sortedPasses k ((dpUpTo fl sortedPasses k).getD (before sortedPasses k) 0))
        ((dpUpTo fl sortedPasses k).getD k 0) := by
  rw [dpUpTo_succ]
  unfold forward
  dsimp
  rw [List.getD_eq_getElem?_getD, List.getElem?_set]
  simp only [length_dpUpTo, ↓reduceIte]
  have : k + 1 < sortedPasses.length + 1 := by omega
  simp only [this, ↓reduceIte, Option.getD_some]
  rfl

theorem dpUpTo_zero_entry (k : Nat) : (dpUpTo fl sortedPasses k).getD 0 0 = 0 := by
  induction k with
  | zero => simp [dpUpTo]
  | succ k ih =>
    rw [dpUpTo_succ_of_le 0 (by omega)]
    apply ih

theorem dpUpTo_entry (hbefore : ∀ i < sortedPasses.length, before sortedPasses i ≤ i) {k i : Nat}
    (hk : k ≤ sortedPasses.length) (hik : i < k)
    : (dpUpTo fl sortedPasses k).getD (i + 1) 0
        =
      max
        (add fl sortedPasses i ((dpUpTo fl sortedPasses k).getD (before sortedPasses i) 0))
        ((dpUpTo fl sortedPasses k).getD i 0) := by
  induction k with
  | zero => omega
  | succ k ih =>
    -- the round writes entry `k + 1`, and both entries that the recurrence reads come before it
    have hle := hbefore i (by omega)
    rw [dpUpTo_succ_of_le (before sortedPasses i) (by omega)]
    rw [dpUpTo_succ_of_le i (by omega)]
    cases Nat.eq_or_lt_of_le (Nat.le_of_lt_succ hik) with
    | inl heq =>
      subst heq
      apply dpUpTo_succ_self
      omega
    | inr hlt =>
      rw [dpUpTo_succ_of_le (i + 1) (by omega)]
      apply ih
      . omega
      . assumption

end forward

section

variable (hsorted : sortedPasses.Pairwise fun p q => p.setTime ≤ q.setTime)
variable (horder : ∀ p ∈ sortedPasses, p.TimeOrder)

include hsorted in
theorem lt_before_iff {i j : Nat} (hi : i < sortedPasses.length) (hj : j < sortedPasses.length)
    : j < before sortedPasses i ↔ set sortedPasses j ≤ rise sortedPasses i := by
  rw [before_eq hi, set_eq hj, rise_eq hi, Bisect.lt_right_iff]
  . rw [List.getElem_map]
  . rw [List.pairwise_map]
    apply hsorted
  . rw [List.length_map]
    apply hj

include hsorted in
theorem before_le_length {i : Nat} (hi : i < sortedPasses.length)
    : before sortedPasses i ≤ sortedPasses.length := by
  rw [before_eq hi]
  have hset : (sortedPasses.map (·.setTime)).Pairwise (· ≤ ·) := List.pairwise_map.mpr hsorted
  have := Bisect.right_le_length hset sortedPasses[i].riseTime
  simpa using this

include horder in
theorem rise_lt_set {i : Nat} (hi : i < sortedPasses.length)
    : rise sortedPasses i < set sortedPasses i := by
  rw [rise_eq hi, set_eq hi]
  apply horder
  apply List.getElem_mem

include hsorted in
theorem set_mono {i j : Nat} (hij : i ≤ j) (hj : j < sortedPasses.length)
    : set sortedPasses i ≤ set sortedPasses j := by
  rw [set_eq (by omega), set_eq hj]
  cases Nat.eq_or_lt_of_le hij with
  | inl heq =>
    subst heq
    apply le_refl
  | inr hlt => apply List.pairwise_iff_getElem.mp hsorted i j (by omega) hj hlt

include hsorted horder in
theorem recurrence (hfl : Monotone fl)
    : Recurrence (rise sortedPasses) (set sortedPasses) (add fl sortedPasses) sortedPasses.length
        (before sortedPasses) (fun i => (dp fl sortedPasses).getD i 0) where
  add_mono := add_mono hfl
  start_lt := by
    intro i hi
    apply rise_lt_set horder hi
  finish_mono := by
    intro i j hij hj
    apply set_mono hsorted hij hj
  lt_prev_iff := by
    intro i hi j hj
    apply lt_before_iff hsorted hi hj
  prev_le := by
    intro i hi
    apply before_le_length hsorted hi
  dp_zero := by apply dpUpTo_zero_entry
  dp_succ := by
    intro i hi
    apply dpUpTo_entry
    . intro j hj
      by_contra hlt
      have hset := (lt_before_iff hsorted hj hj).mp (by omega)
      have := rise_lt_set horder hj
      omega
    . apply le_refl
    . assumption

include hsorted horder in
theorem reconstruct_eq (hfl : Monotone fl) (fuel i : Nat) (hfuel : i ≤ fuel) (hi : i ≤ sortedPasses.length)
    : ∃ s, reconstruct sortedPasses (dp fl sortedPasses) fuel i = some (pickedAt sortedPasses s)
        ∧
      IsFirstBest (rise sortedPasses) (set sortedPasses) (add fl sortedPasses) i s
        ∧
      total (add fl sortedPasses) s i = (dp fl sortedPasses).getD i 0 := by
  have hrec := recurrence hsorted horder hfl
  induction fuel generalizing i with
  | zero =>
    have : i = 0 := by omega
    subst this
    exact ⟨∅, by simp [reconstruct], hrec.isFirstBest_zero⟩
  | succ fuel ih =>
    cases i with
    | zero => exact ⟨∅, by simp [reconstruct], hrec.isFirstBest_zero⟩
    | succ i =>
      have hlt : i < sortedPasses.length := by omega
      unfold reconstruct
      simp only [Nat.add_one_ne_zero, ↓reduceIte, Nat.add_one_sub_one, ne_eq]
      split
      . next hdp =>
        have hle := hrec.prev_le_self hlt
        obtain ⟨s, hs, hbest, htotal⟩ := ih (before sortedPasses i) (by omega) (by omega)
        refine ⟨insert i s, ?_, hrec.isFirstBest_take hlt hdp hbest htotal⟩
        have hbound : ∀ j ∈ s, j < i := by
          intro j hj
          have := hbest.lt j hj
          omega
        rw [pickedAt_insert hlt hbound]
        unfold before at hs
        simp [hlt, hs]
      . next hdp =>
        simp only [not_not] at hdp
        obtain ⟨s, hs, hbest, htotal⟩ := ih i (by omega) (by omega)
        exact ⟨s, hs, hrec.isFirstBest_skip hlt hdp hbest htotal⟩

end

end scheduleWeighted

open scheduleWeighted

variable {fl : Rat → Rat}

/--
`selected` is the first best selection of `offered`, its benefits rounded and added up as by floats: at
any place a pass is taken only if it pays, and then with the first best selection of those before it.
-/
def IsFirstBestSchedule (fl : Rat → Rat) (offered selected : List SatellitePass) : Prop :=
  let sortedPasses := sortedBy (·.setTime) offered
  ∃ s, IsFirstBest (rise sortedPasses) (set sortedPasses) (add fl sortedPasses) sortedPasses.length s
    ∧ selected = pickedAt sortedPasses s

theorem IsFirstBestSchedule.unique {offered selected selected' : List SatellitePass}
    (h : IsFirstBestSchedule fl offered selected) (h' : IsFirstBestSchedule fl offered selected')
    : selected = selected' := by
  obtain ⟨s, hs, rfl⟩ := h
  obtain ⟨t, ht, rfl⟩ := h'
  rw [hs.unique ht]

theorem scheduleWeighted_isFirstBestSchedule (hfl : Monotone fl) {passes : List SatellitePass}
    (horder : ∀ p ∈ passes, p.TimeOrder)
    : ∃ selected,
        scheduleWeighted fl passes = some selected ∧ IsFirstBestSchedule fl passes selected := by
  have hsorted := pairwise_sortedBy (fun p : SatellitePass => p.setTime) passes
  have horder' : ∀ p ∈ sortedBy (fun p : SatellitePass => p.setTime) passes, p.TimeOrder := by
    intro p hp
    apply horder
    simpa using hp
  obtain ⟨s, hs, hbest, _⟩ := reconstruct_eq hsorted horder' hfl _ _ (le_refl _) (le_refl _)
  exact ⟨_, hs, s, hbest, rfl⟩

section

variable {offered selected : List SatellitePass}

theorem isSelection_iff {sortedPasses : List SatellitePass} {s : Finset Nat}
    (hs : ∀ i ∈ s, i < sortedPasses.length)
    : IsSelection (rise sortedPasses) (set sortedPasses) sortedPasses.length s
        ↔
      (pickedAt sortedPasses s).Pairwise SatellitePass.NonOverlapping := by
  constructor
  . intro h
    apply pairwise_pickedAt
    intro i hi j hj hij p q hp hq
    have hcompat := h.compatible i hi j hj hij
    rw [List.getElem?_eq_getElem (hs i hi), Option.some.injEq] at hp
    rw [List.getElem?_eq_getElem (hs j hj), Option.some.injEq] at hq
    subst hp hq
    unfold Compatible at hcompat
    rwa [rise_eq (hs i hi), set_eq (hs i hi), rise_eq (hs j hj), set_eq (hs j hj)] at hcompat
  . intro h
    refine ⟨hs, ?_⟩
    intro i hi j hj hij
    have := rel_of_pairwise_pickedAt (fun _ _ => SatellitePass.NonOverlapping.symm) h hi hj hij
      (hs i hi) (hs j hj)
    unfold Compatible
    rwa [rise_eq (hs i hi), set_eq (hs i hi), rise_eq (hs j hj), set_eq (hs j hj)]

theorem total_exact {sortedPasses : List SatellitePass} {s : Finset Nat}
    (hs : ∀ i ∈ s, i < sortedPasses.length)
    : total (add id sortedPasses) s sortedPasses.length
        =
      ((pickedAt sortedPasses s).map benefit).sum := by
  rw [sum_map_pickedAt hs]
  apply total_eq_sum (worth id sortedPasses) hs

theorem IsFirstBestSchedule.subperm (h : IsFirstBestSchedule fl offered selected)
    : selected.Subperm offered := by
  obtain ⟨s, hs, rfl⟩ := h
  apply List.Subperm.trans
  . apply pickedAt_subperm hs.lt
  . apply List.Perm.subperm
    apply sortedBy_perm

theorem IsFirstBestSchedule.pairwise_nonOverlapping (h : IsFirstBestSchedule fl offered selected)
    : selected.Pairwise SatellitePass.NonOverlapping := by
  obtain ⟨s, hs, rfl⟩ := h
  apply (isSelection_iff hs.lt).mp hs.toIsSelection

theorem IsFirstBestSchedule.sum_benefit_le (h : IsFirstBestSchedule id offered selected)
    {other : List SatellitePass} (hsub : other.Subperm offered)
    (hother : other.Pairwise SatellitePass.NonOverlapping)
    : (other.map benefit).sum ≤ (selected.map benefit).sum := by
  obtain ⟨s, hs, rfl⟩ := h
  have hsub' : other.Subperm (sortedBy (fun p : SatellitePass => p.setTime) offered) := by
    apply hsub.trans
    apply List.Perm.subperm
    apply List.Perm.symm
    apply sortedBy_perm
  obtain ⟨t, ht, hperm⟩ := exists_perm_pickedAt hsub'
  rw [(hperm.map benefit).sum_eq, ← total_exact ht, ← total_exact hs.lt]
  apply hs.total_le
  rw [isSelection_iff ht]
  apply (hperm.pairwise_iff SatellitePass.NonOverlapping.symm).mp hother

end

/-- The call returns, and what it returns is worth the most that non-overlapping passes can be. -/
theorem scheduleWeighted_isGreatest (passes : List SatellitePass)
    (horder : ∀ p ∈ passes, p.TimeOrder)
    : ∃ selected,
        scheduleWeighted id passes = some selected
          ∧
        selected.Subperm passes
          ∧
        selected.Pairwise SatellitePass.NonOverlapping
          ∧
        IsGreatest
          {b | ∃ sub, List.Sublist sub passes ∧ sub.Pairwise SatellitePass.NonOverlapping
            ∧ b = (sub.map benefit).sum}
          (selected.map benefit).sum := by
  obtain ⟨selected, heq, hfirst⟩ := scheduleWeighted_isFirstBestSchedule monotone_id horder
  have hsub := hfirst.subperm
  have hpair := hfirst.pairwise_nonOverlapping
  refine ⟨selected, heq, hsub, hpair, ?_, ?_⟩
  . obtain ⟨sub, hperm, hsublist⟩ := hsub
    refine ⟨sub, hsublist, ?_, ?_⟩
    . apply (hperm.pairwise_iff SatellitePass.NonOverlapping.symm).mpr hpair
    . apply (hperm.map benefit).sum_eq.symm
  . rintro b ⟨sub, hsublist, hother, rfl⟩
    apply hfirst.sum_benefit_le
    . apply hsublist.subperm
    . apply hother

theorem scheduleWeighted_isGreatest_tie
    : let passes : List SatellitePass := [
        { id := 1, noradId := 101, stationId := "GS1", riseTime := 0, setTime := 10,
          durationSeconds := 10, maxElevation := 40 },
        { id := 2, noradId := 102, stationId := "GS1", riseTime := 4, setTime := 10,
          durationSeconds := 6, maxElevation := 70 },
        { id := 3, noradId := 103, stationId := "GS1", riseTime := 10, setTime := 30,
          durationSeconds := 20, maxElevation := 15 }]
      ∃ selected,
        scheduleWeighted id passes = some selected
          ∧
        selected.Subperm passes
          ∧
        selected.Pairwise SatellitePass.NonOverlapping
          ∧
        IsGreatest
          {b | ∃ sub, List.Sublist sub passes ∧ sub.Pairwise SatellitePass.NonOverlapping
            ∧ b = (sub.map benefit).sum}
          (selected.map benefit).sum := by
  intro passes
  apply scheduleWeighted_isGreatest
  decide

end GreedyScheduler
end SdaSystem
