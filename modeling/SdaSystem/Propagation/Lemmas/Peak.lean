import Mathlib.Tactic.IntervalCases
import SdaSystem.Library.Parabola
import SdaSystem.Propagation.Lemmas.Runs

namespace SdaSystem
namespace PassDetector

section refine

variable {ar : Arith} {times elevations : List Rat} {maxI : Nat} {step : Rat}

def twoA (ar : Arith) (elevations : List Rat) (maxI : Nat) : Rat :=
  ar.fl (ar.fl (elevations.getD (maxI - 1) 0 - ar.fl (2 * elevations.getD maxI 0))
    + elevations.getD (maxI + 1) 0)

structure IsRefined (ar : Arith) (times elevations : List Rat) (maxI : Nat) : Prop where
  pos : 0 < maxI
  lt : maxI + 1 < times.length
  previous : nanSentinel < elevations.getD (maxI - 1) 0
  next : nanSentinel < elevations.getD (maxI + 1) 0
  concave : twoA ar elevations maxI < 0

/-- How far the refined peak is from the sample at `maxI`, the samples being `step` apart. -/
def vertexOffset (ar : Arith) (elevations : List Rat) (maxI : Nat) (step : Rat) : Rat :=
  ar.portion (clip (ar.fl (-ar.fl (elevations.getD (maxI + 1) 0 - elevations.getD (maxI - 1) 0)
    / ar.fl (2 * twoA ar elevations maxI))) (-1) 1) step

theorem refineMaxElevation_of_not_refined (h : ¬ IsRefined ar times elevations maxI)
    : refineMaxElevation ar times elevations maxI step
        =
      (elevations.getD maxI 0, times.getD maxI 0) := by
  unfold refineMaxElevation
  dsimp only
  split
  . rfl
  . next hborder =>
    split
    . rfl
    . next hgap =>
      split
      . rfl
      . next hconcave =>
        rw [not_or, not_le, not_le] at hgap
        exfalso
        apply h
        constructor
        case pos => omega
        case lt => omega
        case previous => exact hgap.left
        case next => exact hgap.right
        case concave => exact not_le.mp hconcave

theorem refineMaxElevation_of_refined (h : IsRefined ar times elevations maxI)
    : refineMaxElevation ar times elevations maxI (ar.fl step)
        =
      (ar.fl (elevations.getD maxI 0
          - ar.fl (ar.fl (ar.fl (elevations.getD (maxI + 1) 0 - elevations.getD (maxI - 1) 0) ^ 2)
            / ar.fl (4 * twoA ar elevations maxI))),
        times.getD maxI 0 + vertexOffset ar elevations maxI step) := by
  have hpos := h.pos
  have hlt := h.lt
  unfold refineMaxElevation
  dsimp only
  rw [if_neg (by omega), if_neg (not_or.mpr ⟨not_le.mpr h.previous, not_le.mpr h.next⟩)]
  apply if_neg (not_le.mpr h.concave)

def peakOffset (elevations : List Rat) (maxI : Nat) : Rat :=
  Parabola.offset (elevations.getD (maxI - 1) 0) (elevations.getD maxI 0)
    (elevations.getD (maxI + 1) 0)

theorem exact_twoA
    : twoA .exact elevations maxI
        =
      elevations.getD (maxI - 1) 0 - 2 * elevations.getD maxI 0 + elevations.getD (maxI + 1) 0 :=
  rfl

theorem exact_vertexOffset (hprevious : elevations.getD (maxI - 1) 0 ≤ elevations.getD maxI 0)
    (hnext : elevations.getD (maxI + 1) 0 ≤ elevations.getD maxI 0)
    : vertexOffset .exact elevations maxI step = peakOffset elevations maxI * step := by
  have hoffset := abs_le.mp (Parabola.abs_offset_le hprevious hnext)
  unfold vertexOffset
  simp only [Arith.exact_fl, Arith.exact_portion, exact_twoA]
  rw [← Parabola.offset_eq, ← peakOffset]
  unfold peakOffset
  rw [clip_eq_self (by linarith) (by linarith)]

theorem refineMaxElevation_exact (h : IsRefined .exact times elevations maxI)
    (hprevious : elevations.getD (maxI - 1) 0 ≤ elevations.getD maxI 0)
    (hnext : elevations.getD (maxI + 1) 0 ≤ elevations.getD maxI 0)
    : refineMaxElevation .exact times elevations maxI step
        =
      (elevations.getD maxI 0
          - (elevations.getD (maxI + 1) 0 - elevations.getD (maxI - 1) 0) ^ 2
            / (4 * (elevations.getD (maxI - 1) 0 - 2 * elevations.getD maxI 0
              + elevations.getD (maxI + 1) 0)),
        times.getD maxI 0 + peakOffset elevations maxI * step) := by
  have heq := @refineMaxElevation_of_refined _ _ _ _ step h
  simp only [Arith.exact_fl, exact_vertexOffset hprevious hnext, exact_twoA] at heq
  exact heq

/-- The three samples around `maxI` are those of the parabola, a step apart. -/
structure IsSampledAt (f : Parabola Rat) (times elevations : List Rat) (maxI : Nat) (step : Rat)
    : Prop where
  pos : 0 < maxI
  lt : maxI + 1 < times.length
  previous : times.getD (maxI - 1) 0 = times.getD maxI 0 - step
  next : times.getD (maxI + 1) 0 = times.getD maxI 0 + step
  samples : ∀ k, maxI - 1 ≤ k → k ≤ maxI + 1 → elevations.getD k 0 = f.eval (times.getD k 0)

theorem IsSampledAt.refined {f : Parabola Rat} (h : IsSampledAt f times elevations maxI step)
    (hstep : 0 < step) (hprevious : nanSentinel < elevations.getD (maxI - 1) 0)
    (hnext : nanSentinel < elevations.getD (maxI + 1) 0) : IsRefined .exact times elevations maxI := by
  constructor
  case pos => exact h.pos
  case lt => exact h.lt
  case previous => exact hprevious
  case next => exact hnext
  case concave =>
    rw [exact_twoA, h.samples _ (Nat.le_refl _) (by omega), h.samples maxI (by omega) (by omega),
      h.samples _ (by omega) (Nat.le_refl _), h.previous, h.next, f.second_difference]
    have := f.concave
    nlinarith [pow_pos hstep 2]

theorem IsSampledAt.peakOffset {f : Parabola Rat} (h : IsSampledAt f times elevations maxI step)
    (hstep : 0 < step)
    : times.getD maxI 0 + peakOffset elevations maxI * step = f.vertex := by
  unfold PassDetector.peakOffset
  rw [h.samples (maxI - 1) (Nat.le_refl _) (by omega), h.samples maxI (by omega) (by omega),
    h.samples (maxI + 1) (by omega) (Nat.le_refl _), h.previous, h.next]
  apply f.add_offset_eq_vertex _ (ne_of_gt hstep)

theorem eval_le_refineMaxElevation (f : Parabola Rat) (hstep : 0 < step)
    (h : IsSampledAt f times elevations maxI step)
    (hprevious : elevations.getD (maxI - 1) 0 ≤ elevations.getD maxI 0)
    (hnext : elevations.getD (maxI + 1) 0 ≤ elevations.getD maxI 0)
    (hgapPrevious : nanSentinel < elevations.getD (maxI - 1) 0)
    (hgapNext : nanSentinel < elevations.getD (maxI + 1) 0) (t : Rat)
    : f.eval t ≤ f.eval (refineMaxElevation .exact times elevations maxI step).2 := by
  have hrefined := h.refined hstep hgapPrevious hgapNext
  rw [refineMaxElevation_exact hrefined hprevious hnext, h.peakOffset hstep]
  apply f.eval_le_eval_vertex

/--
The time is that of the vertex. The elevation is the one there, or the one that the parabola has at
the returned time, if and only if the two outer samples are equal.
-/
theorem refineMaxElevation_exact_iff (f : Parabola Rat) (times elevations : List Rat) (maxI : Nat)
    (step : Rat) (hstep : 0 < step) (h : IsSampledAt f times elevations maxI step)
    (hprevious : elevations.getD (maxI - 1) 0 ≤ elevations.getD maxI 0)
    (hnext : elevations.getD (maxI + 1) 0 ≤ elevations.getD maxI 0)
    (hgapPrevious : nanSentinel < elevations.getD (maxI - 1) 0)
    (hgapNext : nanSentinel < elevations.getD (maxI + 1) 0)
    : let res := refineMaxElevation .exact times elevations maxI step
      res.2 = f.vertex
        ∧
      (res = (f.eval f.vertex, f.vertex)
        ↔ elevations.getD (maxI - 1) 0 = elevations.getD (maxI + 1) 0)
        ∧
      (res.1 = f.eval res.2 ↔ elevations.getD (maxI - 1) 0 = elevations.getD (maxI + 1) 0) := by
  have hrefined := h.refined hstep hgapPrevious hgapNext
  have hconcave := ne_of_lt hrefined.concave
  rw [exact_twoA] at hconcave
  have hC := h.samples maxI (by omega) (by omega)
  have hL := h.samples (maxI - 1) (Nat.le_refl _) (by omega)
  have hR := h.samples (maxI + 1) (by omega) (Nat.le_refl _)
  rw [h.previous] at hL
  rw [h.next] at hR
  have hvalue := f.eval_vertex_eq (times.getD maxI 0) (ne_of_gt hstep)
  rw [← hL, ← hC, ← hR] at hvalue
  rw [refineMaxElevation_exact hrefined hprevious hnext, h.peakOffset hstep]
  dsimp only
  rw [Prod.mk.injEq, and_iff_left rfl, hvalue]
  generalize elevations.getD (maxI - 1) 0 - 2 * elevations.getD maxI 0
    + elevations.getD (maxI + 1) 0 = twoA at hconcave ⊢
  generalize elevations.getD (maxI - 1) 0 = elL
  generalize elevations.getD (maxI + 1) 0 = elR
  have hiff : elevations.getD maxI 0 - (elR - elL) ^ 2 / (4 * twoA)
        = elevations.getD maxI 0 - (elR - elL) ^ 2 / (8 * twoA)
      ↔ elL = elR := by
    rw [sub_right_inj, div_eq_div_iff (by simpa using hconcave) (by simpa using hconcave)]
    constructor
    . intro heq
      have : (elR - elL) ^ 2 * twoA = 0 := by linarith
      rw [mul_eq_zero, sq_eq_zero_iff, sub_eq_zero] at this
      exact (this.resolve_right hconcave).symm
    . intro heq
      simp [heq]
  exact ⟨rfl, hiff, hiff⟩

-- Its vertex is at 12, between the samples at 10 and 20.
def tilted : Parabola Rat where
  a := -1 / 10
  b := 12 / 5
  c := 128 / 5
  concave := by norm_num

def tiltedSamples : List Rat := [0, 10, 20].map tilted.eval

theorem isSampledAt_tilted : IsSampledAt tilted [0, 10, 20] tiltedSamples 1 10 := by
  constructor
  case pos => decide
  case lt => decide
  case previous => norm_num
  case next => norm_num
  case samples =>
    intro k hlow hhigh
    interval_cases k <;> rfl

theorem refineMaxElevation_exact_iff_tilted
    : let res := refineMaxElevation .exact [0, 10, 20] tiltedSamples 1 10
      res.2 = tilted.vertex
        ∧
      (res = (tilted.eval tilted.vertex, tilted.vertex)
        ↔ tiltedSamples.getD 0 0 = tiltedSamples.getD 2 0)
        ∧
      (res.1 = tilted.eval res.2 ↔ tiltedSamples.getD 0 0 = tiltedSamples.getD 2 0) :=
  refineMaxElevation_exact_iff tilted [0, 10, 20] tiltedSamples 1 10 (by norm_num)
    isSampledAt_tilted (by decide +kernel) (by decide +kernel) (by decide +kernel)
    (by decide +kernel)

theorem refineMaxElevation_not_exact
    : ¬ ∀ (f : Parabola Rat) (times elevations : List Rat) (maxI : Nat) (step : Rat),
        0 < step → IsSampledAt f times elevations maxI step
          → elevations.getD (maxI - 1) 0 ≤ elevations.getD maxI 0
          → elevations.getD (maxI + 1) 0 ≤ elevations.getD maxI 0
          → nanSentinel < elevations.getD (maxI - 1) 0
          → nanSentinel < elevations.getD (maxI + 1) 0
          → refineMaxElevation .exact times elevations maxI step = (f.eval f.vertex, f.vertex) := by
  intro h
  have := h tilted [0, 10, 20] tiltedSamples 1 10 (by norm_num) isSampledAt_tilted
    (by decide +kernel) (by decide +kernel) (by decide +kernel) (by decide +kernel)
  revert this
  decide +kernel

end refine

end PassDetector
end SdaSystem
