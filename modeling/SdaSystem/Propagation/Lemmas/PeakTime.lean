import SdaSystem.Propagation.Lemmas.DataGap
import SdaSystem.Propagation.Lemmas.Peak

namespace SdaSystem
namespace PassDetector

section passes

variable {ar : Arith} {cfg : Config} {elevations : List (Option Rat)} {times : List Rat}
  {positions : List Position} {mask : Rat}

theorem passOf_maxElevationTime {window : Nat × Nat} {p : PassRecord}
    (h : passOf ar cfg elevations times positions mask window = some p)
    : p.maxElevationTime
        =
      (refineMaxElevation ar times (sanitize elevations)
        (rawMaxI (sanitize elevations) window.1 window.2) (stepSeconds ar cfg times)).2 := by
  unfold passOf at h
  simp only [Option.bind_eq_bind, Option.bind_eq_some_iff, Option.pure_def, Option.some.injEq] at h
  obtain ⟨_, _, rfl⟩ := h
  rfl

end passes

section vertex

variable {ar : Arith} {times elevations : List Rat} {mask step : Rat} {i : Nat}

theorem vertexOffset_nonneg (hstep : 0 ≤ step) (hconcave : twoA ar elevations i < 0)
    (h : elevations.getD (i - 1) 0 ≤ elevations.getD (i + 1) 0)
    : 0 ≤ vertexOffset ar elevations i step := by
  have hdiff : 0 ≤ ar.fl (elevations.getD (i + 1) 0 - elevations.getD (i - 1) 0) := by
    apply ar.fl_nonneg
    linarith
  have hdouble : 0 ≤ -ar.fl (2 * twoA ar elevations i) := by
    rw [← ar.fl_neg]
    apply ar.fl_nonneg
    linarith
  apply ar.portion_nonneg hstep
  apply le_min _ zero_le_one
  apply le_max_of_le_left
  apply ar.fl_nonneg
  rw [← neg_div_neg_eq, neg_neg]
  apply div_nonneg hdiff hdouble

theorem vertexOffset_nonpos (hstep : 0 ≤ step) (hconcave : twoA ar elevations i < 0)
    (h : elevations.getD (i + 1) 0 ≤ elevations.getD (i - 1) 0)
    : vertexOffset ar elevations i step ≤ 0 := by
  have hdiff : 0 ≤ -ar.fl (elevations.getD (i + 1) 0 - elevations.getD (i - 1) 0) := by
    rw [← ar.fl_neg]
    apply ar.fl_nonneg
    linarith
  have hdouble : ar.fl (2 * twoA ar elevations i) ≤ 0 := by
    rw [← ar.fl_zero]
    apply ar.fl_mono
    linarith
  have hquotient : ar.fl (-ar.fl (elevations.getD (i + 1) 0 - elevations.getD (i - 1) 0)
      / ar.fl (2 * twoA ar elevations i)) ≤ ar.fl 0 := by
    apply ar.fl_mono
    apply div_nonpos_of_nonneg_of_nonpos hdiff hdouble
  rw [ar.fl_zero] at hquotient
  apply le_trans _ (le_of_eq (ar.portion_zero (d := step)))
  apply ar.portion_mono hstep
  apply min_le_of_left_le
  apply max_le hquotient (by norm_num)

theorem abs_vertexOffset_le (hstep : 0 ≤ step) (hkeeps : ar.Keeps step)
    : |vertexOffset ar elevations i step| ≤ step := by
  rw [abs_le]
  constructor
  . apply hkeeps.neg_le_portion hstep
    apply le_clip (by norm_num)
  . apply hkeeps.portion_le hstep
    apply clip_le

/--
The vertex of the parabola through the samples around `i` is not before the line from the left one
meets the mask, and not after the line to the right one does.
-/
def VertexInside (ar : Arith) (elevations : List Rat) (mask : Rat) (i : Nat) (step : Rat) : Prop :=
  (IsFlat ar elevations (i - 1)
      ∨ lineOffset ar elevations mask (i - 1) step ≤ step + vertexOffset ar elevations i step)
    ∧
  (IsFlat ar elevations i
      ∨ vertexOffset ar elevations i step ≤ lineOffset ar elevations mask i step)

end vertex

section exact

variable {elevations : List Rat} {mask step : Rat} {i : Nat}

/-- How far the vertex may be on the side of `near`, a neighbour of `i`, in terms of the falls. -/
def Inside (elevations : List Rat) (mask : Rat) (i near far : Nat) : Prop :=
  let elC := elevations.getD i 0
  let fall := elC - elevations.getD near 0
  let fallFar := elC - elevations.getD far 0
  fall < 1 / 10 ^ 12 ∨ fall * (fallFar - fall) ≤ 2 * (elC - mask) * (fall + fallFar)

theorem vertexInside_exact_iff (hstep : 0 < step) (h : IsRun elevations mask i (i + 1))
    (hpos : 0 < i) (hend : i + 1 < elevations.length)
    : VertexInside .exact elevations mask i step
        ↔
      Inside elevations mask i (i - 1) (i + 1) ∧ Inside elevations mask i (i + 1) (i - 1) := by
  obtain ⟨left, rfl⟩ : ∃ left, i = left + 1 := ⟨i - 1, by omega⟩
  have hrise := h.crosses.left left rfl
  have hset := h.crosses.right (left + 1) rfl hend
  have hleft := frac_mem (.inl hrise)
  have hright := frac_mem (.inr hset)
  unfold VertexInside Inside IsFlat lineOffset
  rw [exact_vertexOffset (by rw [Nat.add_one_sub_one]; linarith) (by linarith)]
  simp only [Arith.exact_fl, Arith.exact_portion, Nat.add_one_sub_one]
  rw [clip_eq_self hleft.left hleft.right, clip_eq_self hright.left hright.right]
  rw [abs_of_pos (show 0 < elevations.getD (left + 1) 0 - elevations.getD left 0 by linarith),
    abs_sub_comm,
    abs_of_pos (show 0 < elevations.getD (left + 1) 0 - elevations.getD (left + 1 + 1) 0 by linarith)]
  unfold peakOffset
  rw [Parabola.offset_eq_falls, Nat.add_one_sub_one]
  have hnear : mask - elevations.getD left 0
      = (elevations.getD (left + 1) 0 - elevations.getD left 0)
        - (elevations.getD (left + 1) 0 - mask) := by ring
  have hnear' : (mask - elevations.getD (left + 1) 0)
        / (elevations.getD (left + 1 + 1) 0 - elevations.getD (left + 1) 0)
      = (elevations.getD (left + 1) 0 - mask)
        / (elevations.getD (left + 1) 0 - elevations.getD (left + 1 + 1) 0) := by
    rw [← neg_div_neg_eq, neg_sub, neg_sub]
  rw [hnear, hnear']
  have hfall : 0 < elevations.getD (left + 1) 0 - elevations.getD left 0 := by linarith
  have hfall' : 0 < elevations.getD (left + 1) 0 - elevations.getD (left + 1 + 1) 0 := by linarith
  generalize elevations.getD (left + 1) 0 - elevations.getD left 0 = fall at *
  generalize elevations.getD (left + 1) 0 - elevations.getD (left + 1 + 1) 0 = fall' at *
  generalize elevations.getD (left + 1) 0 - mask = height
  apply and_congr
  . apply or_congr_right
    have hsplit : (fall - height) / fall * step ≤ step + (fall - fall') / (2 * (fall + fall')) * step
        ↔ (fall' - fall) / (2 * (fall + fall')) ≤ height / fall := by
      rw [sub_div, div_self (ne_of_gt hfall), ← neg_sub fall fall', neg_div]
      constructor
      . intro hle
        nlinarith
      . intro hle
        nlinarith
    rw [hsplit, div_le_div_iff₀ (by linarith) hfall]
    constructor <;> intro hle <;> linarith
  . apply or_congr_right
    rw [mul_le_mul_iff_left₀ hstep, div_le_div_iff₀ (by linarith) hfall']
    constructor <;> intro hle <;> linarith

end exact

section lone

variable {ar : Arith} {cfg : Config} {elevations times : List Rat} {positions : List Position}
  {mask step : Rat} {riseI setI : Nat}

structure Uniform (times : List Rat) (step : Rat) : Prop where
  pos : 0 < step
  steps : ∀ i, i + 1 < times.length → times.getD (i + 1) 0 = times.getD i 0 + step

theorem Uniform.increasing (h : Uniform times step) : times.Pairwise (· < ·) := by
  rw [← List.isChain_iff_pairwise, List.isChain_iff_getElem]
  intro i hi
  have := h.steps i hi
  rw [List.getD_eq_getElem _ _ hi, List.getD_eq_getElem _ _ (by omega)] at this
  have := h.pos
  linarith

theorem Uniform.keepsSteps (h : Uniform times step) (hkeeps : ar.Keeps step)
    : ar.KeepsSteps times := by
  intro left hleft
  rw [h.steps left hleft, add_sub_cancel_left]
  exact hkeeps

theorem Uniform.refineMaxElevation_stepSeconds (h : Uniform times step) (maxI : Nat)
    : refineMaxElevation ar times elevations maxI (stepSeconds ar cfg times)
        =
      refineMaxElevation ar times elevations maxI (ar.fl step) := by
  by_cases hlength : 2 ≤ times.length
  . have hstep := h.steps 0 hlength
    unfold stepSeconds
    rw [if_pos hlength, ← Nat.zero_add 1, hstep, add_sub_cancel_left]
  . have hborder : ¬ IsRefined ar times elevations maxI := by
      intro h
      have := h.pos
      have := h.lt
      omega
    rw [refineMaxElevation_of_not_refined hborder, refineMaxElevation_of_not_refined hborder]

def PeakInside (ar : Arith) (times elevations : List Rat) (mask step : Rat) (riseI setI : Nat)
    : Prop :=
  let peak := (refineMaxElevation ar times elevations (rawMaxI elevations riseI setI) (ar.fl step)).2
  riseAt ar times elevations mask riseI ≤ peak ∧ peak ≤ setAt ar times elevations mask setI

theorem passOf_peak_iff (huniform : Uniform times step)
    (hlength : elevations.length = times.length) (h : IsRun elevations mask riseI setI)
    {p : PassRecord}
    (hp : passOf ar cfg (elevations.map some) times positions mask (riseI, setI) = some p)
    : (p.riseTime ≤ p.maxElevationTime ∧ p.maxElevationTime ≤ p.setTime)
        ↔
      PeakInside ar times elevations mask step riseI setI := by
  have hlength' : (elevations.map some).length = times.length := by simpa using hlength
  have hwindow : (riseI, setI) ∈ windows (sanitize (elevations.map some)) mask := by
    rwa [sanitize_map_some, mem_windows_iff]
  have hpass := (passOf_eq_some_of hlength' hwindow hp).right
  rw [hpass.riseTime, hpass.setTime, passOf_maxElevationTime hp, sanitize_map_some,
    huniform.refineMaxElevation_stepSeconds]
  rfl

section run

variable (huniform : Uniform times step)

include huniform

theorem vertexInside_of_peakInside {i : Nat} (h : IsRun elevations mask i (i + 1))
    (hrefined : IsRefined ar times elevations i)
    (hinside : PeakInside ar times elevations mask step i (i + 1))
    : VertexInside ar elevations mask i step := by
  have hraw : rawMaxI elevations i (i + 1) = i := by
    have := (rawMaxI_spec h.lt h.le).left
    omega
  have hpos := hrefined.pos
  have hlt := hrefined.lt
  obtain ⟨left, rfl⟩ : ∃ left, i = left + 1 := ⟨i - 1, by omega⟩
  have hstep := huniform.steps left (by omega)
  have hstep' := huniform.steps (left + 1) hlt
  unfold PeakInside at hinside
  rw [hraw, refineMaxElevation_of_refined hrefined] at hinside
  dsimp only at hinside
  unfold riseAt setAt lineTime at hinside
  rw [if_neg (Nat.succ_ne_zero left), if_neg (show ¬ times.length ≤ left + 1 + 1 by omega),
    Nat.add_one_sub_one, Nat.add_one_sub_one, hstep', hstep, add_sub_cancel_left,
    add_sub_cancel_left] at hinside
  constructor
  . by_cases hflat : IsFlat ar elevations left
    . exact .inl hflat
    . rw [if_neg hflat] at hinside
      right
      rw [Nat.add_one_sub_one]
      linarith
  . by_cases hflat : IsFlat ar elevations (left + 1)
    . exact .inl hflat
    . rw [if_neg hflat] at hinside
      right
      linarith

variable (hlength : elevations.length = times.length) (hkeeps : ar.Keeps step)
  (h : IsRun elevations mask riseI setI)

include hlength hkeeps h

theorem riseAt_le_peak
    (hlone : riseI + 1 = setI → IsRefined ar times elevations riseI
      → VertexInside ar elevations mask riseI step)
    : riseAt ar times elevations mask riseI
        ≤ (refineMaxElevation ar times elevations (rawMaxI elevations riseI setI) (ar.fl step)).2 := by
  obtain ⟨⟨hrise, hset⟩, _⟩ := rawMaxI_spec h.lt h.le
  have hle := h.le
  have hnonneg := le_of_lt huniform.pos
  have hincreasing := huniform.increasing
  have hbound := (riseAt_bounds hincreasing (huniform.keepsSteps hkeeps) hlength h).right
  generalize rawMaxI elevations riseI setI = maxI at *
  by_cases hrefined : IsRefined ar times elevations maxI
  . rw [refineMaxElevation_of_refined hrefined]
    dsimp only
    have hpos := hrefined.pos
    have hlt := hrefined.lt
    have hoffset : |vertexOffset ar elevations maxI step| ≤ step := abs_vertexOffset_le hnonneg hkeeps
    rw [abs_le] at hoffset
    by_cases hfirst : riseI < maxI
    . -- the sample before the largest is in the run too
      have hstep := huniform.steps (maxI - 1) (by omega)
      rw [Nat.sub_add_cancel hpos] at hstep
      have := getD_le_getD hincreasing (show riseI ≤ maxI - 1 by omega) (by omega)
      linarith
    . obtain rfl : riseI = maxI := by omega
      by_cases hsingle : riseI + 1 = setI
      . obtain ⟨left, rfl⟩ : ∃ left, riseI = left + 1 := ⟨riseI - 1, by omega⟩
        have hstep := huniform.steps left (by omega)
        have hvertex := (hlone hsingle hrefined).left
        rw [Nat.add_one_sub_one] at hvertex
        unfold riseAt lineTime
        rw [if_neg (Nat.succ_ne_zero left), Nat.add_one_sub_one, hstep, add_sub_cancel_left]
        split
        . linarith
        . next hflat =>
          have := hvertex.resolve_left hflat
          linarith
      . -- the neighbour in the run is the higher one
        have hbefore := h.before hpos
        have hnext := h.above (riseI + 1) (by omega) (by omega)
        have hoffset : 0 ≤ vertexOffset ar elevations riseI step :=
          vertexOffset_nonneg hnonneg hrefined.concave (by linarith)
        linarith
  . rw [refineMaxElevation_of_not_refined hrefined]
    have := getD_le_getD hincreasing hrise (by omega)
    linarith

theorem peak_le_setAt
    (hlone : riseI + 1 = setI → IsRefined ar times elevations riseI
      → VertexInside ar elevations mask riseI step)
    : (refineMaxElevation ar times elevations (rawMaxI elevations riseI setI) (ar.fl step)).2
        ≤ setAt ar times elevations mask setI := by
  obtain ⟨⟨hrise, hset⟩, _⟩ := rawMaxI_spec h.lt h.le
  have hle := h.le
  have hnonneg := le_of_lt huniform.pos
  have hincreasing := huniform.increasing
  have hbound := (setAt_bounds hincreasing (huniform.keepsSteps hkeeps) hlength h).left
  generalize rawMaxI elevations riseI setI = maxI at *
  by_cases hrefined : IsRefined ar times elevations maxI
  . rw [refineMaxElevation_of_refined hrefined]
    dsimp only
    have hpos := hrefined.pos
    have hlt := hrefined.lt
    have hstep := huniform.steps maxI hlt
    have hoffset : |vertexOffset ar elevations maxI step| ≤ step := abs_vertexOffset_le hnonneg hkeeps
    rw [abs_le] at hoffset
    by_cases hlast : maxI + 1 < setI
    . have := getD_le_getD hincreasing (show maxI + 1 ≤ setI - 1 by omega) (by omega)
      linarith
    . obtain rfl : setI = maxI + 1 := by omega
      by_cases hsingle : riseI = maxI
      . subst hsingle
        have hvertex := (hlone rfl hrefined).right
        unfold setAt lineTime
        rw [if_neg (by omega), Nat.add_one_sub_one, hstep, add_sub_cancel_left]
        split
        . linarith
        . next hflat =>
          have := hvertex.resolve_left hflat
          linarith
      . have hafter := h.after (by omega)
        have hprevious := h.above (maxI - 1) (by omega) (by omega)
        have hoffset : vertexOffset ar elevations maxI step ≤ 0 :=
          vertexOffset_nonpos hnonneg hrefined.concave (by linarith)
        rw [Nat.add_one_sub_one] at hbound
        linarith
  . rw [refineMaxElevation_of_not_refined hrefined]
    have := getD_le_getD hincreasing (show maxI ≤ setI - 1 by omega) (by omega)
    linarith

end run

end lone

section python

variable {cfg : Config} {elevations : List Rat} {times : List Int} {positions : List Position}
  {mask : Rat} {step : Int}

structure UniformSteps (times : List Int) (step : Int) : Prop where
  pos : 0 < step
  steps : ∀ i, i + 1 < times.length → times.getD (i + 1) 0 = times.getD i 0 + step

theorem UniformSteps.uniform (h : UniformSteps times step)
    : Uniform (times.map seconds) (seconds step) := by
  constructor
  case pos =>
    rw [show (0 : Rat) = seconds 0 by simp [seconds_eq], seconds_lt_seconds_iff]
    exact h.pos
  case steps =>
    intro i hi
    rw [List.length_map] at hi
    rw [getD_map_seconds hi, getD_map_seconds (by omega), h.steps i hi, seconds_eq, seconds_eq,
      seconds_eq, Int.cast_add, add_div]

/--
The peak of every pass is between its rise and its set if and only if it is so for the passes over a
single sample, where it depends on how much lower the two neighbours are. Only if a float of seconds
loses microseconds of the step, the peaks of the other passes matter too.
-/
theorem extractPasses_peak_iff (cfg : Config) (elevations : List Rat) (times : List Int)
    (positions : List Position) (mask : Rat) (step : Int)
    (hlength : elevations.length = times.length) (huniform : UniformSteps times step)
    : (∀ p ∈ extractPasses .python cfg (elevations.map some) (times.map seconds) positions mask,
        p.riseTime ≤ p.maxElevationTime ∧ p.maxElevationTime ≤ p.setTime)
        ↔
      (∀ i, EmittedRun .python cfg.minPassDuration (times.map seconds) elevations mask i (i + 1)
        → IsRefined .python (times.map seconds) elevations i
        → VertexInside .python elevations mask i (seconds step))
        ∧
      (¬ IsKept step → ∀ riseI setI,
        EmittedRun .python cfg.minPassDuration (times.map seconds) elevations mask riseI setI
          → PeakInside .python (times.map seconds) elevations mask (seconds step) riseI setI) := by
  have huniform' := huniform.uniform
  have hlength' : elevations.length = (times.map seconds).length := by simpa using hlength
  have hlength'' : (elevations.map some).length = (times.map seconds).length := by simpa using hlength
  constructor
  . intro h
    have hinside : ∀ riseI setI,
        EmittedRun .python cfg.minPassDuration (times.map seconds) elevations mask riseI setI
          → PeakInside .python (times.map seconds) elevations mask (seconds step) riseI setI := by
      intro riseI setI hemitted
      have hemitted' : EmittedRun .python cfg.minPassDuration (times.map seconds)
          (sanitize (elevations.map some)) mask riseI setI := by
        rwa [sanitize_map_some]
      obtain ⟨p, hp⟩ := @exists_passOf_of_run _ _ _ _ positions _ hlength'' _ _ hemitted'
      have hmem : p ∈ extractPasses .python cfg (elevations.map some) (times.map seconds) positions
          mask := List.mem_filterMap.mpr ⟨_, mem_windows_iff.mpr hemitted'.toIsRun, hp⟩
      apply (passOf_peak_iff huniform' hlength' hemitted.toIsRun hp).mp (h p hmem)
    refine ⟨?_, fun _ => hinside⟩
    intro i hemitted hrefined
    apply vertexInside_of_peakInside huniform' hemitted.toIsRun hrefined
    apply hinside i (i + 1) hemitted
  . rintro ⟨hlone, hlost⟩ p hp
    obtain ⟨⟨riseI, setI⟩, hwindow, hp⟩ := List.mem_filterMap.mp hp
    have hemitted := (passOf_eq_some_of hlength'' hwindow hp).left
    rw [sanitize_map_some] at hemitted
    rw [passOf_peak_iff huniform' hlength' hemitted.toIsRun hp]
    by_cases hkept : IsKept step
    . have hkeeps := Arith.python_keeps (le_of_lt huniform.pos) hkept
      have hlone' : riseI + 1 = setI → IsRefined .python (times.map seconds) elevations riseI
          → VertexInside .python elevations mask riseI (seconds step) := by
        rintro rfl
        apply hlone riseI hemitted
      constructor
      . apply riseAt_le_peak huniform' hlength' hkeeps hemitted.toIsRun hlone'
      . apply peak_le_setAt huniform' hlength' hkeeps hemitted.toIsRun hlone'
    . apply hlost hkept riseI setI hemitted

theorem uniformSteps_three (hstep : 0 < step) : UniformSteps [0, step, 2 * step] step := by
  constructor
  case pos => exact hstep
  case steps =>
    intro i hi
    have : i < 2 := Nat.lt_of_succ_lt_succ hi
    interval_cases i
    . simp
    . simp [two_mul]

theorem extractPasses_peak_iff_even
    : let times := [0, 10000000, 2 * 10000000].map seconds
      (∀ p ∈ extractPasses .python northward ([0, 12, 0].map some) times [] 10,
        p.riseTime ≤ p.maxElevationTime ∧ p.maxElevationTime ≤ p.setTime)
        ↔
      (∀ i, EmittedRun .python northward.minPassDuration times [0, 12, 0] 10 i (i + 1)
        → IsRefined .python times [0, 12, 0] i
        → VertexInside .python [0, 12, 0] 10 i (seconds 10000000))
        ∧
      (¬ IsKept 10000000 → ∀ riseI setI,
        EmittedRun .python northward.minPassDuration times [0, 12, 0] 10 riseI setI
          → PeakInside .python times [0, 12, 0] 10 (seconds 10000000) riseI setI) :=
  extractPasses_peak_iff northward [0, 12, 0] [0, 10000000, 2 * 10000000] [] 10 10000000 rfl
    (uniformSteps_three (by norm_num))

-- The deployed step with the default minimum duration.
def deployed : Config where
  propagationStep := 30
  minPassDuration := 5
  azimuth _ := 0

theorem peak_not_inside
    : ¬ ∀ (cfg : Config) (elevations : List Rat) (times : List Int) (positions : List Position)
        (mask : Rat) (step : Int),
        elevations.length = times.length → UniformSteps times step → 0 < cfg.minPassDuration
          → ∀ p ∈ extractPasses .python cfg (elevations.map some) (times.map seconds) positions mask,
              p.riseTime ≤ p.maxElevationTime ∧ p.maxElevationTime ≤ p.setTime := by
  intro h
  have := h deployed [992 / 100, 1002 / 100, 9] [0, 30000000, 2 * 30000000] [] 10 30000000 rfl
    (uniformSteps_three (by norm_num)) (by norm_num [deployed])
  revert this
  decide +kernel

end python

end PassDetector
end SdaSystem
