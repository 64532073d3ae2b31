import Mathlib.Analysis.SpecialFunctions.Complex.Arg
import SdaSystem.Library.Vec3

/-!
The coordinates of an observer: a vector, given by how far it goes to the east, to the north and up, and
its range, its elevation above the horizon and its azimuth, clockwise from north. Angles are in radians.
-/

open Vec3

namespace Horizontal

noncomputable section

def direction (elevation azimuth : ℝ) : Fin 3 → ℝ :=
  ![Real.cos elevation * Real.sin azimuth, Real.cos elevation * Real.cos azimuth, Real.sin elevation]

def range (v : Fin 3 → ℝ) : ℝ :=
  √(dotProduct v v)

def elevation (v : Fin 3 → ℝ) : ℝ :=
  Real.arcsin (z v / range v)

def azimuth (v : Fin 3 → ℝ) : ℝ :=
  Complex.arg ⟨y v, x v⟩

end

variable (v : Fin 3 → ℝ) {r el az : ℝ}

theorem dotProduct_self_nonneg : 0 ≤ dotProduct v v := by
  rw [dotProduct_self]
  positivity

theorem range_sq : range v ^ 2 = x v ^ 2 + y v ^ 2 + z v ^ 2 := by
  rw [← dotProduct_self]
  apply Real.sq_sqrt (dotProduct_self_nonneg v)

theorem range_nonneg : 0 ≤ range v := Real.sqrt_nonneg _

theorem abs_up_le_range : |z v| ≤ range v := by
  apply abs_le_of_sq_le_sq _ (range_nonneg v)
  rw [range_sq]
  linarith [sq_nonneg (x v), sq_nonneg (y v)]

theorem up_div_range_mem : -1 ≤ z v / range v ∧ z v / range v ≤ 1 := by
  have habs : |z v / range v| ≤ 1 := by
    rw [abs_div, abs_of_nonneg (range_nonneg v)]
    apply div_le_one_of_le₀ (abs_up_le_range v) (range_nonneg v)
  exact abs_le.mp habs

theorem elevation_mem : -(Real.pi / 2) ≤ elevation v ∧ elevation v ≤ Real.pi / 2 :=
  ⟨Real.neg_pi_div_two_le_arcsin _, Real.arcsin_le_pi_div_two _⟩

theorem range_mul_sin_elevation (h : 0 < range v) : range v * Real.sin (elevation v) = z v := by
  obtain ⟨hlow, hhigh⟩ := up_div_range_mem v
  unfold elevation
  rw [Real.sin_arcsin hlow hhigh, mul_div_cancel₀ _ (ne_of_gt h)]

theorem range_mul_cos_elevation (h : 0 < range v)
    : range v * Real.cos (elevation v) = ‖(⟨y v, x v⟩ : ℂ)‖ := by
  have hcos : 0 ≤ Real.cos (elevation v) := Real.cos_nonneg_of_mem_Icc (elevation_mem v)
  rw [← sq_eq_sq₀ (mul_nonneg (le_of_lt h) hcos) (norm_nonneg _), Complex.sq_norm, Complex.normSq_mk,
    mul_pow, Real.cos_sq', mul_sub, mul_one, ← mul_pow, range_mul_sin_elevation v h, range_sq]
  ring

theorem range_smul_direction (h : 0 < range v)
    : range v • direction (elevation v) (azimuth v) = v := by
  have heast : range v * (Real.cos (elevation v) * Real.sin (azimuth v)) = x v := by
    rw [← mul_assoc, range_mul_cos_elevation v h]
    apply Complex.norm_mul_sin_arg
  have hnorth : range v * (Real.cos (elevation v) * Real.cos (azimuth v)) = y v := by
    rw [← mul_assoc, range_mul_cos_elevation v h]
    apply Complex.norm_mul_cos_arg
  funext i
  match i with
  | 0 => exact heast
  | 1 => exact hnorth
  | 2 => exact range_mul_sin_elevation v h

variable {v}

theorem range_direction (hr : 0 < r) : range (r • direction el az) = r := by
  rw [← sq_eq_sq₀ (range_nonneg _) (le_of_lt hr), range_sq]
  calc
    (r * (Real.cos el * Real.sin az)) ^ 2 + (r * (Real.cos el * Real.cos az)) ^ 2 + (r * Real.sin el) ^ 2
        = r ^ 2 * (Real.cos el ^ 2 * (Real.sin az ^ 2 + Real.cos az ^ 2) + Real.sin el ^ 2) := by
      ring
    _ = r ^ 2 := by
      rw [Real.sin_sq_add_cos_sq, mul_one, Real.cos_sq_add_sin_sq, mul_one]

theorem elevation_direction (hr : 0 < r) (hlow : -(Real.pi / 2) ≤ el) (hhigh : el ≤ Real.pi / 2)
    : elevation (r • direction el az) = el := by
  unfold elevation
  rw [range_direction hr]
  have hup : z (r • direction el az) = r * Real.sin el := rfl
  rw [hup, mul_div_cancel_left₀ _ (ne_of_gt hr), Real.arcsin_sin hlow hhigh]

theorem azimuth_direction (hr : 0 < r) (hcos : 0 < Real.cos el)
    : ∃ k : ℤ, azimuth (r • direction el az) = az + k * (2 * Real.pi) := by
  have hpolar : (⟨y (r • direction el az), x (r • direction el az)⟩ : ℂ)
      = (r * Real.cos el : ℝ) * (Complex.cos az + Complex.sin az * Complex.I) := by
    rw [← Complex.ofReal_cos, ← Complex.ofReal_sin, ← Complex.mk_eq_add_mul_I]
    apply Complex.ext
    . rw [Complex.re_ofReal_mul, mul_assoc]
      rfl
    . rw [Complex.im_ofReal_mul, mul_assoc]
      rfl
  unfold azimuth
  rw [hpolar, Complex.arg_mul_cos_add_sin_mul_I_eq_toIocMod (mul_pos hr hcos)]
  refine ⟨-toIocDiv Real.two_pi_pos (-Real.pi) az, ?_⟩
  rw [← self_sub_toIocDiv_zsmul, zsmul_eq_mul, Int.cast_neg]
  ring

theorem azimuth_direction_of_cos_eq_zero (hcos : Real.cos el = 0)
    : azimuth (r • direction el az) = 0 := by
  have hzero : (⟨y (r • direction el az), x (r • direction el az)⟩ : ℂ) = 0 := by
    apply Complex.ext
    . simp [direction, hcos]
    . simp [direction, hcos]
  unfold azimuth
  rw [hzero, Complex.arg_zero]

end Horizontal
