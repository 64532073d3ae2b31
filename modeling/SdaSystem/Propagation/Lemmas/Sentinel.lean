import SdaSystem.Propagation.Lemmas.Runs

/-!
Passes next to samples that are not finite. Such a sample is replaced before the edges are found, so
it is a number below the mask when a crossing is interpolated, and it lies outside of the run when
the gap flag is computed.
-/

namespace SdaSystem
namespace PassDetector

section line

variable {times elevations : List Rat} {mask : Rat} {riseI setI : Nat}

theorem lineTime_eq_right_iff {left : Nat} (hstep : times.getD left 0 < times.getD (left + 1) 0)
    (h : (elevations.getD left 0 < mask ∧ mask ≤ elevations.getD (left + 1) 0)
      ∨ (mask ≤ elevations.getD left 0 ∧ elevations.getD (left + 1) 0 < mask))
    : lineTime .exact times elevations mask left = times.getD (left + 1) 0
        ↔
      elevations.getD (left + 1) 0 = mask := by
  have hdt : times.getD (left + 1) 0 - times.getD left 0 ≠ 0 := sub_ne_zero.mpr (ne_of_gt hstep)
  have hdelta : elevations.getD (left + 1) 0 - elevations.getD left 0 ≠ 0 := by
    cases h with
    | inl h =>
      apply ne_of_gt
      linarith
    | inr h =>
      apply ne_of_lt
      linarith
  obtain ⟨hnonneg, hle⟩ := frac_mem h
  unfold lineTime lineOffset
  simp only [Arith.exact_fl, Arith.exact_portion]
  rw [clip_eq_self hnonneg hle]
  rw [← eq_sub_iff_add_eq', mul_eq_right₀ hdt, div_eq_one_iff_eq hdelta, sub_left_inj]
  exact eq_comm

theorem lineTime_eq_left_iff {left : Nat} (hstep : times.getD left 0 < times.getD (left + 1) 0)
    (h : (elevations.getD left 0 < mask ∧ mask ≤ elevations.getD (left + 1) 0)
      ∨ (mask ≤ elevations.getD left 0 ∧ elevations.getD (left + 1) 0 < mask))
    : lineTime .exact times elevations mask left = times.getD left 0
        ↔
      elevations.getD left 0 = mask := by
  have hdt : times.getD (left + 1) 0 - times.getD left 0 ≠ 0 := sub_ne_zero.mpr (ne_of_gt hstep)
  have hdelta : elevations.getD (left + 1) 0 - elevations.getD left 0 ≠ 0 := by
    cases h with
    | inl h =>
      apply ne_of_gt
      linarith
    | inr h =>
      apply ne_of_lt
      linarith
  obtain ⟨hnonneg, hle⟩ := frac_mem h
  unfold lineTime lineOffset
  simp only [Arith.exact_fl, Arith.exact_portion]
  rw [clip_eq_self hnonneg hle]
  rw [add_eq_left, mul_eq_zero, or_iff_left hdt, div_eq_zero_iff, or_iff_left hdelta, sub_eq_zero]
  exact eq_comm

theorem riseAt_eq_iff (hincreasing : times.Pairwise (· < ·))
    (hlength : elevations.length = times.length) (h : IsRun elevations mask riseI setI)
    (hpos : 0 < riseI)
    : riseAt .exact times elevations mask riseI = times.getD riseI 0
        ↔
      elevations.getD riseI 0 = mask ∧ ¬ IsFlat .exact elevations (riseI - 1) := by
  have hlt := h.lt
  have hle := h.le
  obtain ⟨left, rfl⟩ : ∃ left, riseI = left + 1 := ⟨riseI - 1, by omega⟩
  have hcrosses := h.crosses.left left rfl
  have hstep := getD_lt_getD hincreasing (Nat.lt_succ_self left) (by omega)
  unfold riseAt
  rw [if_neg (Nat.succ_ne_zero left), Nat.add_one_sub_one]
  split
  . next hflat =>
    apply iff_of_false (ne_of_lt hstep)
    intro hsample
    exact hsample.right hflat
  . next hflat =>
    rw [lineTime_eq_right_iff hstep (.inl hcrosses), and_iff_left hflat]

theorem setAt_eq_iff (hincreasing : times.Pairwise (· < ·))
    (hlength : elevations.length = times.length) (h : IsRun elevations mask riseI setI)
    (hend : setI < times.length)
    : setAt .exact times elevations mask setI = times.getD (setI - 1) 0
        ↔
      elevations.getD (setI - 1) 0 = mask ∧ ¬ IsFlat .exact elevations (setI - 1) := by
  have hlt := h.lt
  obtain ⟨left, rfl⟩ : ∃ left, setI = left + 1 := ⟨setI - 1, by omega⟩
  have hcrosses := h.crosses.right left rfl (by omega)
  have hstep := getD_lt_getD hincreasing (Nat.lt_succ_self left) hend
  unfold setAt
  rw [if_neg (by omega), Nat.add_one_sub_one]
  split
  . next hflat =>
    apply iff_of_false (ne_of_gt hstep)
    intro hsample
    exact hsample.right hflat
  . next hflat =>
    rw [lineTime_eq_left_iff hstep (.inr hcrosses), and_iff_left hflat]

end line

section gap

variable {ar : Arith} {cfg : Config} {elevations : List (Option Rat)} {times : List Rat}
  {positions : List Position} {mask : Rat} {riseI setI : Nat}

def GapBefore (elevations : List (Option Rat)) (riseI : Nat) : Prop :=
  0 < riseI ∧ elevations[riseI - 1]? = some none

def GapAfter (elevations : List (Option Rat)) (setI : Nat) : Prop :=
  elevations[setI]? = some none

theorem getD_sanitize_of_gap {i : Nat} (h : elevations[i]? = some none)
    : (sanitize elevations).getD i 0 = nanSentinel := by
  unfold sanitize
  rw [List.getD_eq_getElem?_getD, List.getElem?_map, h]
  rfl

theorem sentinel_lt_mask (h : IsRun (sanitize elevations) mask riseI setI)
    (hgap : GapBefore elevations riseI ∨ GapAfter elevations setI) : nanSentinel < mask := by
  cases hgap with
  | inl hgap =>
    rw [← getD_sanitize_of_gap hgap.right]
    apply h.before hgap.left
  | inr hgap =>
    obtain ⟨hend, _⟩ := List.getElem?_eq_some_iff.mp hgap
    rw [← getD_sanitize_of_gap hgap]
    apply h.after
    simpa [sanitize] using hend

theorem hasDataGap_eq_false (h : IsRun (sanitize elevations) mask riseI setI) (hmask : nanSentinel < mask) {p : PassRecord}
    (hp : passOf ar cfg elevations times positions mask (riseI, setI) = some p)
    : p.hasDataGap = false := by
  rw [passOf_hasDataGap hp, List.any_eq_false]
  intro e he hnone
  rw [Option.isNone_iff_eq_none] at hnone
  obtain ⟨i, hi⟩ := List.getElem?_of_mem he
  rw [List.getElem?_drop, List.getElem?_take] at hi
  split at hi
  . next hset =>
    rw [hnone] at hi
    have := h.above (riseI + i) (Nat.le_add_right riseI i) hset
    rw [getD_sanitize_of_gap hi] at this
    linarith
  . cases hi

def StopsAtGap (elevations : List (Option Rat)) (times : List Rat) (riseI setI : Nat)
    (p : PassRecord) : Prop :=
  (GapBefore elevations riseI → p.hasDataGap ∧ p.riseTime = times.getD riseI 0)
    ∧
  (GapAfter elevations setI → p.hasDataGap ∧ p.setTime = times.getD (setI - 1) 0)

/--
A pass next to a failed step is never flagged, and its time on this side is that of the sample only
if the sample is exactly at the mask.
-/
theorem passOf_beside_gap (hincreasing : times.Pairwise (· < ·))
    (hlength : elevations.length = times.length) (h : IsRun (sanitize elevations) mask riseI setI)
    {p : PassRecord}
    (hp : passOf .exact cfg elevations times positions mask (riseI, setI) = some p)
    : (GapBefore elevations riseI → p.hasDataGap = false
        ∧ (p.riseTime = times.getD riseI 0 → (sanitize elevations).getD riseI 0 = mask))
        ∧
      (GapAfter elevations setI → p.hasDataGap = false
        ∧ (p.setTime = times.getD (setI - 1) 0 → (sanitize elevations).getD (setI - 1) 0 = mask))
    := by
  have hlength' : (sanitize elevations).length = times.length := by simp [sanitize, hlength]
  have hpass := (passOf_eq_some_of hlength (mem_windows_iff.mpr h) hp).right
  constructor
  . intro hgap
    refine ⟨hasDataGap_eq_false h (sentinel_lt_mask h (.inl hgap)) hp, ?_⟩
    intro hrise
    rw [hpass.riseTime, riseAt_eq_iff hincreasing hlength' h hgap.left] at hrise
    exact hrise.left
  . intro hgap
    obtain ⟨hend, _⟩ := List.getElem?_eq_some_iff.mp hgap
    refine ⟨hasDataGap_eq_false h (sentinel_lt_mask h (.inr hgap)) hp, ?_⟩
    intro hset
    rw [hpass.setTime, setAt_eq_iff hincreasing hlength' h (by omega)] at hset
    exact hset.left

/--
Each pass next to failed steps is flagged and stops at its samples if and only if there is no such
pass at all.
-/
theorem extractPasses_stopsAtGap_iff (ar : Arith) (cfg : Config)
    (elevations : List (Option Rat)) (times : List Rat) (positions : List Position) (mask : Rat)
    (hlength : elevations.length = times.length)
    : (∀ riseI setI p, IsRun (sanitize elevations) mask riseI setI
        → passOf ar cfg elevations times positions mask (riseI, setI) = some p
        → StopsAtGap elevations times riseI setI p)
        ↔
      ∀ riseI setI,
        EmittedRun ar cfg.minPassDuration times (sanitize elevations) mask riseI setI
          → ¬ GapBefore elevations riseI ∧ ¬ GapAfter elevations setI := by
  constructor
  . intro h riseI setI hemitted
    obtain ⟨p, hp⟩ := @exists_passOf_of_run _ _ _ _ positions _ hlength _ _ hemitted
    have hrun := hemitted.toIsRun
    obtain ⟨hbefore, hafter⟩ := h riseI setI p hrun hp
    constructor
    . intro hgap
      have := hasDataGap_eq_false hrun (sentinel_lt_mask hrun (.inl hgap)) hp
      exact Bool.noConfusion (this.symm.trans (hbefore hgap).left)
    . intro hgap
      have := hasDataGap_eq_false hrun (sentinel_lt_mask hrun (.inr hgap)) hp
      exact Bool.noConfusion (this.symm.trans (hafter hgap).left)
  . intro h riseI setI p hrun hp
    obtain ⟨hemitted, _⟩ := passOf_eq_some_of hlength (mem_windows_iff.mpr hrun) hp
    obtain ⟨hbefore, hafter⟩ := h riseI setI hemitted
    exact ⟨fun hgap => absurd hgap hbefore, fun hgap => absurd hgap hafter⟩

theorem extractPasses_stopsAtGap_iff_after
    : let elevations : List (Option Rat) := [some 0, some 20, some 40, none, some 0]
      (∀ riseI setI p, IsRun (sanitize elevations) 10 riseI setI
        → passOf .python northward elevations fiveTimes [] 10 (riseI, setI) = some p
        → StopsAtGap elevations fiveTimes riseI setI p)
        ↔
      ∀ riseI setI,
        EmittedRun .python northward.minPassDuration fiveTimes (sanitize elevations) 10 riseI setI
          → ¬ GapBefore elevations riseI ∧ ¬ GapAfter elevations setI :=
  extractPasses_stopsAtGap_iff .python northward _ fiveTimes [] 10 rfl

theorem extractPasses_not_stopsAtGap
    : ¬ ∀ (cfg : Config) (elevations : List (Option Rat)) (times : List Rat)
        (positions : List Position) (mask : Rat),
        elevations.length = times.length → times.Pairwise (· < ·) → 0 < cfg.minPassDuration
          → ∀ riseI setI p, IsRun (sanitize elevations) mask riseI setI
            → passOf .python cfg elevations times positions mask (riseI, setI) = some p
            → StopsAtGap elevations times riseI setI p := by
  intro h
  let elevations : List (Option Rat) := [some 0, some 20, some 40, none, some 0]
  have hrun : IsRun (sanitize elevations) 10 1 3 := by
    rw [← mem_windows_iff]
    decide +kernel
  have hpass : ∃ p, passOf .python northward elevations fiveTimes [] 10 (1, 3) = some p
      ∧ p.hasDataGap = false := by
    refine ⟨(passOf .python northward elevations fiveTimes [] 10 (1, 3)).get (by decide +kernel), ?_⟩
    decide +kernel
  obtain ⟨p, hp, hflag⟩ := hpass
  have hstops := h northward elevations fiveTimes [] 10 rfl (by decide +kernel)
    (by norm_num [northward]) 1 3 p hrun hp
  have := (hstops.right rfl).left
  rw [hflag] at this
  cases this

end gap

end PassDetector
end SdaSystem
