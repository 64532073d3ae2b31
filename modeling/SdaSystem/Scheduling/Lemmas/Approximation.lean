import SdaSystem.Library.Charging
import SdaSystem.Library.Packing
import SdaSystem.Scheduling.Lemmas.Benefit
import SdaSystem.Scheduling.Lemmas.Effect

open Intervals FirstFit

namespace SdaSystem

theorem SatellitePass.Checks.benefit_nonneg {p : SatellitePass} (h : p.Checks) : 0 ≤ benefit p :=
  mul_nonneg h.right.right.left (le_of_lt h.right.left)

structure LengthsWithin (passes : List SatellitePass) (shortest : Int) (factor : Nat) : Prop where
  pos : 0 < shortest
  ge : ∀ p ∈ passes, p.riseTime + shortest ≤ p.setTime
  le : ∀ p ∈ passes, p.setTime ≤ p.riseTime + factor * shortest

section

variable {passes other : List SatellitePass} {shortest : Int} {factor : Nat}

theorem LengthsWithin.countP_le (h : LengthsWithin passes shortest factor) {p : SatellitePass}
    (hp : p ∈ passes) (hsub : other ⊆ passes) (hother : other.Pairwise SatellitePass.NonOverlapping)
    : other.countP (fun q => ¬ p.NonOverlapping q) ≤ factor + 1 := by
  let blocked := other.filter fun q => ¬ p.NonOverlapping q
  have hblocked : ∀ q ∈ blocked, q ∈ passes ∧ ¬ p.NonOverlapping q := by
    intro q hq
    obtain ⟨hq, hnot⟩ := List.mem_filter.mp hq
    exact ⟨hsub hq, of_decide_eq_true hnot⟩
  rw [List.countP_eq_length_filter, ← List.length_map (·.interval)]
  apply length_le_of_meets h.pos (a := p.interval)
  . rw [nsmul_eq_mul]
    apply h.le p hp
  . rw [List.forall_mem_map]
    intro q hq
    apply h.ge q (hblocked q hq).left
  . rw [List.pairwise_map]
    apply (hother.sublist List.filter_sublist).imp
    intro a b hab
    apply SatellitePass.not_meets_interval.mpr hab
  . rw [List.forall_mem_map]
    intro q hq
    by_contra hclear
    apply (hblocked q hq).right (SatellitePass.not_meets_interval.mp hclear)

theorem sum_benefit_le_greedyByBenefit (h : LengthsWithin passes shortest factor)
    (hchecks : ∀ p ∈ passes, p.Checks) (hsub : other ⊆ passes)
    (hother : other.Pairwise SatellitePass.NonOverlapping)
    : (other.map benefit).sum ≤ (factor + 1) * ((greedyByBenefit passes).map benefit).sum := by
  have hmem : ∀ p, p ∈ sortedBy (fun p => -benefit p) passes ↔ p ∈ passes := by simp
  have hle : (other.map benefit).sum ≤ (factor + 1) • ((greedyByBenefit passes).map benefit).sum := by
    apply sum_le_nsmul_sum_firstFit
    . apply (pairwise_sortedBy (fun p => -benefit p) passes).imp
      intro p q
      exact neg_le_neg_iff.mp
    . intro p hp hself
      have horder := (hchecks p ((hmem p).mp hp)).left
      apply SatellitePass.not_overlaps_iff.mpr hself ⟨horder, horder⟩
    . intro p hp
      apply (hmem p).mpr (hsub hp)
    . intro p hp
      apply h.countP_le ((hmem p).mp hp) hsub hother
    . intro p hp
      apply (hchecks p ((hmem p).mp hp)).benefit_nonneg
  rw [nsmul_eq_mul] at hle
  exact_mod_cast hle

end

namespace GreedyScheduler

section

variable {passes : List SatellitePass} {shortest : Int} {factor : Nat}

theorem sum_benefit_le_scheduleHeap (hchecks : ∀ p ∈ passes, p.Checks)
    (h : LengthsWithin passes shortest factor)
    : ∃ best, scheduleWeighted id passes = some best
        ∧ (best.map benefit).sum ≤ (factor + 1) * ((scheduleHeap passes).map benefit).sum := by
  have horder : ∀ p ∈ passes, p.TimeOrder := fun p hp => (hchecks p hp).left
  obtain ⟨best, heq, hbest⟩ := scheduleWeighted_isFirstBestSchedule monotone_id horder
  refine ⟨best, heq, ?_⟩
  rw [scheduleHeap_eq passes horder]
  apply sum_benefit_le_greedyByBenefit h hchecks hbest.subperm.subset hbest.pairwise_nonOverlapping

end

section

variable (factor : Nat)

def briefPass (i : Nat) : SatellitePass where
  id := i + 1
  noradId := i + 1
  stationId := "GS1"
  riseTime := 2 * i
  setTime := 2 * i + 2
  durationSeconds := 2 / 1000000
  maxElevation := 90

def longPass : SatellitePass where
  id := 0
  noradId := 0
  stationId := "GS1"
  riseTime := 1
  setTime := 1 + 2 * factor
  durationSeconds := 2 * factor / 1000000
  maxElevation := 90 / factor

def briefPasses : List SatellitePass :=
  (List.range (factor + 1)).map briefPass

def blockedPasses : List SatellitePass :=
  longPass factor :: briefPasses factor

theorem pairwise_briefPasses : (briefPasses factor).Pairwise SatellitePass.NonOverlapping := by
  unfold briefPasses
  rw [List.pairwise_map]
  apply List.pairwise_lt_range.imp
  intro i j hij
  apply Or.inl
  simp only [briefPass]
  omega

theorem benefit_briefPass (i : Nat) : benefit (briefPass i) = 9 / 50000 := by
  norm_num [benefit, briefPass]

theorem sum_benefit_briefPasses
    : ((briefPasses factor).map benefit).sum = (factor + 1) * (9 / 50000) := by
  unfold briefPasses
  rw [List.map_map]
  have hmap : (List.range (factor + 1)).map (benefit ∘ briefPass)
      = List.replicate (factor + 1) (9 / 50000 : Rat) := by
    rw [List.eq_replicate_iff]
    constructor
    . simp
    . simp [benefit_briefPass]
  rw [hmap, List.sum_replicate, nsmul_eq_mul]
  norm_num

variable {factor}

theorem benefit_longPass (hfactor : 0 < factor) : benefit (longPass factor) = 9 / 50000 := by
  have : (factor : Rat) ≠ 0 := by exact_mod_cast (ne_of_gt hfactor)
  unfold benefit longPass
  field_simp
  norm_num

theorem forall_mem_blockedPasses {motive : SatellitePass → Prop} (hlong : motive (longPass factor))
    (hbrief : ∀ i ≤ factor, motive (briefPass i)) : ∀ p ∈ blockedPasses factor, motive p := by
  unfold blockedPasses briefPasses
  rw [List.forall_mem_cons, List.forall_mem_map]
  refine ⟨hlong, ?_⟩
  intro i hi
  apply hbrief i (Nat.lt_succ_iff.mp (List.mem_range.mp hi))

theorem checks_blockedPasses (hfactor : 0 < factor) : ∀ p ∈ blockedPasses factor, p.Checks := by
  have hpos : (0 : Rat) < factor := by exact_mod_cast hfactor
  have hone : (1 : Rat) ≤ factor := by exact_mod_cast hfactor
  apply forall_mem_blockedPasses
  . refine ⟨?_, ?_, ?_, ?_⟩
    . simp only [longPass]
      omega
    . simp only [longPass]
      positivity
    . simp only [longPass]
      positivity
    . simp only [longPass]
      apply div_le_self (by norm_num) hone
  . intro i _
    refine ⟨?_, ?_, ?_, ?_⟩
    . simp [briefPass]
    . norm_num [briefPass]
    . norm_num [briefPass]
    . norm_num [briefPass]

theorem lengthsWithin_blockedPasses (hfactor : 0 < factor)
    : LengthsWithin (blockedPasses factor) 2 factor := by
  constructor
  case pos => decide
  case ge =>
    apply forall_mem_blockedPasses
    . simp only [longPass]
      omega
    . intro i _
      exact le_refl _
  case le =>
    apply forall_mem_blockedPasses
    . simp only [longPass]
      omega
    . intro i _
      simp only [briefPass]
      omega

theorem greedyByBenefit_blockedPasses (hfactor : 0 < factor)
    : greedyByBenefit (blockedPasses factor) = [longPass factor] := by
  have hbenefit : ∀ p ∈ blockedPasses factor, benefit p = 9 / 50000 := by
    apply forall_mem_blockedPasses
    . apply benefit_longPass hfactor
    . intro i _
      apply benefit_briefPass
  have hsorted : sortedBy (fun p => -benefit p) (blockedPasses factor) = blockedPasses factor := by
    apply sortedBy_eq_self
    apply List.pairwise_of_forall_mem_list
    intro p hp q hq
    rw [hbenefit p hp, hbenefit q hq]
  have hblocked : ∀ p ∈ briefPasses factor, ∃ q ∈ [longPass factor], ¬ q.NonOverlapping p := by
    unfold briefPasses
    rw [List.forall_mem_map]
    intro i hi
    rw [List.mem_range] at hi
    refine ⟨_, List.mem_singleton_self _, ?_⟩
    simp only [SatellitePass.NonOverlapping, longPass, briefPass]
    omega
  unfold greedyByBenefit
  rw [hsorted, blockedPasses, firstFit, if_pos (by simp), firstFit_eq_nil hblocked]

/--
For passes of which the longest is at most `factor` times as long as the shortest, the heap scheduler
gets at least one in `factor + 1` parts of the best benefit, and there are passes where it gets no more.
-/
theorem scheduleHeap_ratio (hfactor : 0 < factor)
    : IsLeast
        {k : Rat | ∀ passes shortest, (∀ p ∈ passes, p.Checks) → LengthsWithin passes shortest factor
          → ∃ best, scheduleWeighted id passes = some best
              ∧ (best.map benefit).sum ≤ k * ((scheduleHeap passes).map benefit).sum}
        (factor + 1) := by
  constructor
  . intro passes shortest hchecks h
    apply sum_benefit_le_scheduleHeap hchecks h
  . intro k hk
    have hchecks := checks_blockedPasses hfactor
    have horder : ∀ p ∈ blockedPasses factor, p.TimeOrder := fun p hp => (hchecks p hp).left
    obtain ⟨best, heq, hle⟩ := hk (blockedPasses factor) 2 hchecks (lengthsWithin_blockedPasses hfactor)
    obtain ⟨best', heq', hbest⟩ := scheduleWeighted_isFirstBestSchedule monotone_id horder
    rw [heq, Option.some.injEq] at heq'
    subst heq'
    have hsub : (briefPasses factor).Subperm (blockedPasses factor) :=
      (List.sublist_cons_self _ _).subperm
    have hgreatest := hbest.sum_benefit_le hsub (pairwise_briefPasses factor)
    rw [scheduleHeap_eq _ horder, greedyByBenefit_blockedPasses hfactor, List.map_singleton,
      List.sum_singleton, benefit_longPass hfactor] at hle
    rw [sum_benefit_briefPasses] at hgreatest
    linarith

theorem scheduleHeap_ratio_fifteen
    : IsLeast
        {k : Rat | ∀ passes shortest, (∀ p ∈ passes, p.Checks) → LengthsWithin passes shortest 15
          → ∃ best, scheduleWeighted id passes = some best
              ∧ (best.map benefit).sum ≤ k * ((scheduleHeap passes).map benefit).sum}
        ((15 : Nat) + 1) :=
  scheduleHeap_ratio (by decide)

end

end GreedyScheduler

namespace IntervalTreeScheduler

theorem sum_benefit_le_scheduleForStation {session : Session} {stationId : String} {sats : Finset Int}
    {startTime endTime shortest : Int} {factor : Nat}
    (hchecks : ∀ p ∈ session.table.rows, p.Checks)
    (hdistinct : DistinctAlike
      (GreedyScheduler.candidates session.table startTime endTime stationId sats))
    (h : LengthsWithin (GreedyScheduler.candidates session.table startTime endTime stationId sats)
      shortest factor)
    : ∃ best selected,
        GreedyScheduler.scheduleWeighted id
            (GreedyScheduler.candidates session.table startTime endTime stationId sats)
          = some best
          ∧
        (scheduleForStation toUtcTimestamp (fun _ => false) session stationId sats startTime endTime).2
          = some selected
          ∧
        (best.map benefit).sum ≤ (factor + 1) * (selected.map benefit).sum := by
  have hchecks' : ∀ p ∈ GreedyScheduler.candidates session.table startTime endTime stationId sats,
      p.Checks := fun p hp => hchecks p (List.mem_of_mem_filter hp)
  obtain ⟨best, heq, hbest⟩ :=
    GreedyScheduler.scheduleWeighted_isFirstBestSchedule monotone_id fun p hp => (hchecks' p hp).left
  refine ⟨best, _, heq, scheduleForStation_eq hdistinct.orderedAlike, ?_⟩
  rw [List.map_map]
  apply sum_benefit_le_greedyByBenefit h hchecks' hbest.subperm.subset hbest.pairwise_nonOverlapping

end IntervalTreeScheduler

end SdaSystem
