import Mathlib.Algebra.Order.Field.Basic
import Mathlib.Data.List.GetD
import Mathlib.Tactic.Linarith
import Mathlib.Tactic.FieldSimp
import Mathlib.Tactic.Ring
import SdaSystem.Db.Models
import SdaSystem.Propagation.Impl.PassDetector

/-!
Which of the emitted passes the table accepts. The times and the lower bound of the peak always fit;
the refined peak exceeds 90° for some shapes of the three samples around it.
-/

open TrueRuns

namespace SdaSystem
namespace PassDetector

section argmax

theorem argmax_spec {xs : List Rat} (hne : xs ≠ [])
    : argmax xs < xs.length ∧ ∀ x ∈ xs, x ≤ xs.getD (argmax xs) 0 := by
  unfold argmax
  cases hmax : xs.max? with
  | none => simp [List.max?_eq_none_iff.mp hmax] at hne
  | some m =>
    obtain ⟨hmem, hle⟩ := List.max?_eq_some_iff.mp hmax
    have hlt := List.idxOf_lt_length_of_mem hmem
    dsimp
    refine ⟨hlt, ?_⟩
    rw [List.getD_eq_getElem _ _ hlt, List.getElem_idxOf]
    apply hle

end argmax

section windows

variable {elevations : List Rat} {mask : Rat} {riseI setI : Nat}

theorem windows_eq (elevations : List Rat) (mask : Rat)
    : windows elevations mask = trueRuns (elevations.map fun e => decide (e ≥ mask)) := by
  unfold windows
  apply zip_indicesOf_diff

theorem windows_spec (h : (riseI, setI) ∈ windows elevations mask)
    : riseI < setI ∧ setI ≤ elevations.length ∧ mask ≤ elevations.getD riseI 0 := by
  rw [windows_eq] at h
  obtain ⟨hlt, hle, habove⟩ := trueRuns_spec h
  rw [List.length_map] at hle
  have := habove riseI (by omega) hlt
  have hi : riseI < elevations.length := by omega
  rw [List.getElem?_map, List.getElem?_eq_getElem hi] at this
  refine ⟨hlt, hle, ?_⟩
  rw [List.getD_eq_getElem _ _ hi]
  simpa using this

theorem rawMaxI_spec (hlt : riseI < setI) (hle : setI ≤ elevations.length)
    : (riseI ≤ rawMaxI elevations riseI setI ∧ rawMaxI elevations riseI setI < setI)
        ∧
      ∀ k, riseI ≤ k → k < setI
        → elevations.getD k 0 ≤ elevations.getD (rawMaxI elevations riseI setI) 0 := by
  have hlength : ((elevations.take setI).drop riseI).length = setI - riseI := by
    rw [List.length_drop, List.length_take]
    omega
  have hne : (elevations.take setI).drop riseI ≠ [] := by
    rw [← List.length_pos_iff, hlength]
    omega
  have hget : ∀ k, k < setI - riseI
      → ((elevations.take setI).drop riseI).getD k 0 = elevations.getD (riseI + k) 0 := by
    intro k hk
    rw [List.getD_eq_getElem?_getD, List.getD_eq_getElem?_getD, List.getElem?_drop,
      List.getElem?_take_of_lt (by omega)]
  obtain ⟨hmaxlt, hmax⟩ := argmax_spec hne
  rw [hlength] at hmaxlt
  unfold rawMaxI
  refine ⟨⟨by omega, by omega⟩, ?_⟩
  intro k hrise hset
  obtain ⟨i, rfl⟩ := Nat.exists_eq_add_of_le hrise
  have hi := hget i (by omega)
  rw [← hget _ hmaxlt, ← hi]
  apply hmax
  rw [List.getD_eq_getElem _ _ (by omega)]
  apply List.getElem_mem

theorem mask_le_rawMaxI (h : (riseI, setI) ∈ windows elevations mask)
    : mask ≤ elevations.getD (rawMaxI elevations riseI setI) 0 := by
  obtain ⟨hlt, hle, habove⟩ := windows_spec h
  apply le_trans habove
  apply (rawMaxI_spec hlt hle).right _ (Nat.le_refl _) hlt

end windows

section peak

variable {times elevations : List Rat}

/--
The parabola through an interior peak and its neighbours, as the code evaluates its vertex, stays
within 90°. A peak next to a gap, or without curvature, is not refined.
-/
def PeakWithinZenith (times elevations : List Rat) (maxI : Nat) : Prop :=
  let elL := elevations.getD (maxI - 1) 0
  let elC := elevations.getD maxI 0
  let elR := elevations.getD (maxI + 1) 0
  0 < maxI → maxI + 1 < times.length → nanSentinel < elL → nanSentinel < elR → elL + elR < 2 * elC
    → (elR - elL) ^ 2 ≤ 4 * (90 - elC) * (2 * elC - elL - elR)

theorem le_refineMaxElevation (times elevations : List Rat) (maxI : Nat) (step : Rat)
    : elevations.getD maxI 0 ≤ (refineMaxElevation .exact times elevations maxI step).1 := by
  unfold refineMaxElevation
  dsimp [Arith.exact]
  split
  . rfl
  . split
    . rfl
    . split
      . rfl
      . next hcurved =>
        dsimp
        rw [le_sub_self_iff]
        apply div_nonpos_of_nonneg_of_nonpos
        . apply sq_nonneg
        . linarith

theorem refineMaxElevation_le_iff {maxI : Nat} (hle : elevations.getD maxI 0 ≤ 90) (step : Rat)
    : (refineMaxElevation .exact times elevations maxI step).1 ≤ 90
        ↔
      PeakWithinZenith times elevations maxI := by
  unfold refineMaxElevation PeakWithinZenith
  dsimp [Arith.exact]
  generalize elevations.getD (maxI - 1) 0 = elL
  generalize elevations.getD (maxI + 1) 0 = elR
  generalize elevations.getD maxI 0 = elC at hle ⊢
  split
  . next hborder =>
    simp only [hle, true_iff]
    intro hpos hlt
    omega
  . next hborder =>
    split
    . next hgap =>
      simp only [hle, true_iff]
      intro _ _ hL hR
      cases hgap with
      | inl hgap => exact absurd hgap (not_le_of_gt hL)
      | inr hgap => exact absurd hgap (not_le_of_gt hR)
    . next hgap =>
      split
      . next hflat =>
        simp only [hle, true_iff]
        intro _ _ _ _ hcurved
        linarith
      . next hcurved =>
        rw [not_or] at hborder hgap
        have hpos : 0 < maxI := by omega
        have hlt : maxI + 1 < times.length := by omega
        have hconcave : elL + elR < 2 * elC := by linarith
        simp only [hpos, hlt, lt_of_not_ge hgap.left, lt_of_not_ge hgap.right, hconcave,
          forall_const]
        have hneg : 4 * (elL - 2 * elC + elR) < 0 := by linarith
        rw [sub_le_iff_le_add, ← sub_le_iff_le_add', le_div_iff_of_neg hneg]
        constructor
        . intro h
          linarith
        . intro h
          linarith

end peak

section extract

variable (ar : Arith) (cfg : Config) (elevations : List (Option Rat)) (times : List Rat)
variable (positions : List Position) (mask : Rat)

theorem sanitize_le (hrange : ∀ e, some e ∈ elevations → e ≤ 90) (i : Nat)
    : (sanitize elevations).getD i 0 ≤ 90 := by
  rw [List.getD_eq_getElem?_getD]
  unfold sanitize
  rw [List.getElem?_map]
  cases hi : elevations[i]? with
  | none => simp
  | some e =>
    cases e with
    | none =>
      unfold nanSentinel
      norm_num
    | some e => simpa using hrange e (List.mem_of_getElem? hi)

theorem passOf_eq_some {window : Nat × Nat} {p : PassRecord}
    (h : passOf ar cfg elevations times positions mask window = some p)
    : ∃ rise set, passTimes ar cfg elevations times mask window = some (rise, set)
        ∧
      p.riseTime = rise.time ∧ p.setTime = set.time
        ∧
      p.durationSeconds = ar.fl (set.time - rise.time)
        ∧
      p.maxElevation = (refineMaxElevation ar times (sanitize elevations)
        (rawMaxI (sanitize elevations) window.1 window.2) (stepSeconds ar cfg times)).1 := by
  unfold passOf at h
  simp only [Option.bind_eq_bind, Option.bind_eq_some_iff, Option.pure_def, Option.some.injEq] at h
  obtain ⟨⟨rise, set⟩, htimes, rfl⟩ := h
  exact ⟨rise, set, htimes, rfl, rfl, rfl, rfl⟩

theorem passOf_isSome_iff {window : Nat × Nat}
    : (passOf ar cfg elevations times positions mask window).isSome
        ↔
      (passTimes ar cfg elevations times mask window).isSome := by
  unfold passOf
  cases passTimes ar cfg elevations times mask window <;> simp

theorem passTimes_lt {window : Nat × Nat} {rise set : Crossing}
    (h : passTimes ar cfg elevations times mask window = some (rise, set)) : rise.time < set.time := by
  unfold passTimes at h
  dsimp at h
  split at h
  . simp at h
  . next hlt =>
    split at h
    . simp at h
    . cases h
      apply lt_of_not_ge hlt

/--
Every emitted pass satisfies the checks of the table if and only if the refined peak of each window
that is emitted stays within 90°.
-/
theorem extractPasses_checks_iff (hrange : ∀ e, some e ∈ elevations → e ≤ 90) (hmask : 0 ≤ mask)
    : (∀ p ∈ extractPasses .exact cfg elevations times positions mask,
        PassChecks p.riseTime p.setTime p.durationSeconds p.maxElevation)
        ↔
      ∀ window ∈ windows (sanitize elevations) mask,
        (passTimes .exact cfg elevations times mask window).isSome
          → PeakWithinZenith times (sanitize elevations)
              (rawMaxI (sanitize elevations) window.1 window.2) := by
  unfold extractPasses
  constructor
  . intro h window hwindow hsome
    rw [← passOf_isSome_iff .exact cfg elevations times positions mask, Option.isSome_iff_exists] at hsome
    obtain ⟨p, hp⟩ := hsome
    have hchecks := h p (List.mem_filterMap.mpr ⟨window, hwindow, hp⟩)
    obtain ⟨rise, set, _, _, _, _, hpeak⟩ := passOf_eq_some _ _ _ _ _ _ hp
    rw [← refineMaxElevation_le_iff (sanitize_le elevations hrange _) (stepSeconds .exact cfg times),
      ← hpeak]
    apply hchecks.right.right.right
  . intro h p hp
    obtain ⟨window, hwindow, hp⟩ := List.mem_filterMap.mp hp
    have hsome : (passTimes .exact cfg elevations times mask window).isSome := by
      rw [← passOf_isSome_iff .exact cfg elevations times positions mask, hp]
      rfl
    obtain ⟨rise, set, htimes, hrise, hset, hduration, hpeak⟩ := passOf_eq_some _ _ _ _ _ _ hp
    have hlt := passTimes_lt _ _ _ _ _ htimes
    have hlower := le_refineMaxElevation times (sanitize elevations)
      (rawMaxI (sanitize elevations) window.1 window.2) (stepSeconds .exact cfg times)
    have habove := mask_le_rawMaxI hwindow
    have hupper := (refineMaxElevation_le_iff (sanitize_le elevations hrange _)
      (stepSeconds .exact cfg times)).mpr (h window hwindow hsome)
    unfold PassChecks
    rw [hrise, hset, hduration, hpeak, Arith.exact_fl]
    refine ⟨hlt, ?_, ?_, hupper⟩
    . linarith
    . linarith

def fiveTimes : List Rat := [0, 10, 20, 30, 40]

def northward : Config where
  propagationStep := 10
  minPassDuration := 5
  azimuth _ := 0

theorem extractPasses_checks_iff_low
    : (∀ p ∈ extractPasses .exact northward [some 0, some 30, some 40, some 30, some 0] fiveTimes [] 10,
        PassChecks p.riseTime p.setTime p.durationSeconds p.maxElevation)
        ↔
      ∀ window ∈ windows (sanitize [some 0, some 30, some 40, some 30, some 0]) 10,
        (passTimes .exact northward [some 0, some 30, some 40, some 30, some 0] fiveTimes 10 window).isSome
          → PeakWithinZenith fiveTimes (sanitize [some 0, some 30, some 40, some 30, some 0])
              (rawMaxI (sanitize [some 0, some 30, some 40, some 30, some 0]) window.1 window.2)
    := by
  apply extractPasses_checks_iff
  . intro e he
    simp only [List.mem_cons, Option.some.injEq, List.not_mem_nil, or_false] at he
    rcases he with rfl | rfl | rfl | rfl | rfl <;> norm_num
  . norm_num

theorem peak_exceeds_zenith
    : ¬ ∀ (cfg : Config) (elevations : List (Option Rat)) (times : List Rat)
        (positions : List Position) (mask : Rat),
        elevations.length = times.length → (∀ e, some e ∈ elevations → -90 ≤ e ∧ e ≤ 90)
          → times.Pairwise (· < ·) → 0 ≤ mask ∧ mask ≤ 90 → 0 < cfg.minPassDuration
          → ∀ p ∈ extractPasses .exact cfg elevations times positions mask,
              PassChecks p.riseTime p.setTime p.durationSeconds p.maxElevation := by
  intro h
  have := h northward [some 0, some 80, some (899 / 10), some (898 / 10), some 0] fiveTimes [] 10
    rfl
    (by
      intro e he
      simp only [List.mem_cons, Option.some.injEq, List.not_mem_nil, or_false] at he
      rcases he with rfl | rfl | rfl | rfl | rfl <;> norm_num)
    (by decide +kernel) (by norm_num) (by decide +kernel)
  revert this
  decide +kernel

end extract

end PassDetector
end SdaSystem
