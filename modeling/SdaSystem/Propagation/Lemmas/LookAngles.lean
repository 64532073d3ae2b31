import Mathlib.LinearAlgebra.Matrix.NonsingularInverse
import SdaSystem.Library.Horizontal
import SdaSystem.Propagation.Lemmas.Coordinates

namespace SdaSystem

noncomputable def Numpy.real : Numpy ℝ where
  pi := Real.pi
  sin := Real.sin
  cos := Real.cos
  sqrt := Real.sqrt
  arcsin := Real.arcsin
  arctan2 y x := Complex.arg ⟨x, y⟩

theorem Numpy.radians_eq (x : ℝ) : Numpy.real.radians x = x * (Real.pi / 180) := rfl

theorem Numpy.degrees_eq (x : ℝ) : Numpy.real.degrees x = x * (180 / Real.pi) := rfl

theorem Numpy.radians_degrees (x : ℝ) : Numpy.real.radians (Numpy.real.degrees x) = x := by
  have hpi := Real.pi_ne_zero
  rw [radians_eq, degrees_eq]
  field_simp

theorem Numpy.degrees_radians (x : ℝ) : Numpy.real.degrees (Numpy.real.radians x) = x := by
  have hpi := Real.pi_ne_zero
  rw [radians_eq, degrees_eq]
  field_simp

theorem Numpy.radians_le_radians {x y : ℝ} (h : x ≤ y) : Numpy.real.radians x ≤ Numpy.real.radians y :=
  mul_le_mul_of_nonneg_right h (div_nonneg (le_of_lt Real.pi_pos) (by norm_num))

theorem Numpy.radians_lt_radians {x y : ℝ} (h : x < y) : Numpy.real.radians x < Numpy.real.radians y :=
  mul_lt_mul_of_pos_right h (div_pos Real.pi_pos (by norm_num))

theorem Numpy.degrees_le_degrees {x y : ℝ} (h : x ≤ y) : Numpy.real.degrees x ≤ Numpy.real.degrees y :=
  mul_le_mul_of_nonneg_right h (div_nonneg (by norm_num) (le_of_lt Real.pi_pos))

theorem Numpy.radians_ninety : Numpy.real.radians 90 = Real.pi / 2 := by
  rw [radians_eq]
  ring

theorem Numpy.degrees_half_pi : Numpy.real.degrees (Real.pi / 2) = 90 := by
  rw [← radians_ninety, degrees_radians]

theorem Numpy.radians_neg (x : ℝ) : Numpy.real.radians (-x) = -Numpy.real.radians x := neg_mul x _

theorem Numpy.degrees_neg (x : ℝ) : Numpy.real.degrees (-x) = -Numpy.real.degrees x := neg_mul x _

namespace CoordinateConverter

theorem fullTurn_pos : (0 : ℝ) < fullTurn := by
  unfold fullTurn
  norm_num

section remainder

variable (x : ℝ) {y : ℝ}

theorem remainder_mem (hy : 0 < y) : 0 ≤ remainder x y ∧ remainder x y < y := by
  unfold remainder
  constructor
  . rw [sub_nonneg, mul_comm, ← le_div_iff₀ hy]
    apply Int.floor_le
  . have hlt := Int.lt_floor_add_one (x / y)
    rw [div_lt_iff₀ hy] at hlt
    linarith

theorem remainder_add_turns (hy : 0 < y) (k : ℤ) : remainder (x + k * y) y = remainder x y := by
  unfold remainder
  rw [add_div, mul_div_cancel_right₀ _ (ne_of_gt hy), Int.floor_add_intCast, Int.cast_add]
  ring

theorem remainder_eq_self (hy : 0 < y) (hx : 0 ≤ x ∧ x < y) : remainder x y = x := by
  unfold remainder
  rw [Int.floor_eq_zero_iff.mpr ⟨div_nonneg hx.left (le_of_lt hy), (div_lt_one hy).mpr hx.right⟩,
    Int.cast_zero, mul_zero, sub_zero]

theorem radians_add_turns (k : ℤ)
    : Numpy.real.radians (x + k * fullTurn) = Numpy.real.radians x + k * (2 * Real.pi) := by
  rw [Numpy.radians_eq, Numpy.radians_eq, fullTurn]
  ring

theorem degrees_add_turns (k : ℤ)
    : Numpy.real.degrees (x + k * (2 * Real.pi)) = Numpy.real.degrees x + k * fullTurn := by
  have hpi := Real.pi_ne_zero
  rw [Numpy.degrees_eq, Numpy.degrees_eq, fullTurn]
  field_simp
  ring

end remainder

/-- Where a satellite is in the sky of a station; the range is not below what is too near. -/
structure Sighting where
  range : ℝ
  elevation : ℝ
  azimuth : ℝ
  rangeLe : tooNear ≤ range
  elevationMem : -90 ≤ elevation ∧ elevation ≤ 90
  azimuthMem : 0 ≤ azimuth ∧ azimuth < fullTurn

noncomputable def Sighting.enu (s : Sighting) : Fin 3 → ℝ :=
  s.range • Horizontal.direction (Numpy.real.radians s.elevation) (Numpy.real.radians s.azimuth)

noncomputable def place (stationEcefKm : Fin 3 → ℝ) (latRad lonRad : ℝ) (s : Sighting) : Fin 3 → ℝ :=
  stationEcefKm + (enuRotation Numpy.real latRad lonRad).transpose.mulVec s.enu

theorem tooNear_pos : (0 : ℝ) < tooNear := by
  unfold tooNear
  norm_num

variable (latRad lonRad : ℝ)

theorem enuRotation_mul_transpose
    : enuRotation Numpy.real latRad lonRad * (enuRotation Numpy.real latRad lonRad).transpose = 1 := by
  have hlat := Real.sin_sq_add_cos_sq latRad
  have hlon := Real.sin_sq_add_cos_sq lonRad
  ext i j
  rw [Matrix.mul_apply, Fin.sum_univ_three]
  unfold enuRotation Numpy.real
  fin_cases i <;> fin_cases j
  all_goals
    simp
    grind

theorem ecefToEnu_transpose (v : Fin 3 → ℝ)
    : ecefToEnu Numpy.real ((enuRotation Numpy.real latRad lonRad).transpose.mulVec v) latRad lonRad
        = v := by
  unfold ecefToEnu
  rw [Matrix.mulVec_mulVec, enuRotation_mul_transpose, Matrix.one_mulVec]

theorem transpose_ecefToEnu (v : Fin 3 → ℝ)
    : (enuRotation Numpy.real latRad lonRad).transpose.mulVec (ecefToEnu Numpy.real v latRad lonRad)
        = v := by
  unfold ecefToEnu
  rw [Matrix.mulVec_mulVec, mul_eq_one_comm.mp (enuRotation_mul_transpose latRad lonRad),
    Matrix.one_mulVec]

theorem range_ecefToEnu (v : Fin 3 → ℝ)
    : Horizontal.range (ecefToEnu Numpy.real v latRad lonRad) = Horizontal.range v := by
  unfold Horizontal.range
  congr 1
  nth_rewrite 2 [ecefToEnu]
  rw [Matrix.dotProduct_mulVec, ← Matrix.mulVec_transpose, transpose_ecefToEnu]

theorem lookAngles_real (enu : Fin 3 → ℝ)
    : lookAngles Numpy.real enu
        =
      (Numpy.real.degrees (Horizontal.elevation enu),
        remainder (Numpy.real.degrees (Horizontal.azimuth enu)) fullTurn) := by
  obtain ⟨hlow, hhigh⟩ := Horizontal.up_div_range_mem enu
  have hclip : clip (Vec3.z enu / Horizontal.range enu) (-1) 1 = Vec3.z enu / Horizontal.range enu := by
    unfold clip
    rw [max_eq_left hlow, min_eq_left hhigh]
  unfold Horizontal.elevation
  rw [← hclip]
  rfl

theorem computeElevationAzimuth_real {sat station : Fin 3 → ℝ}
    (h : tooNear ≤ Horizontal.range (sat - station))
    : computeElevationAzimuth Numpy.real sat station latRad lonRad
        =
      let enu := ecefToEnu Numpy.real (sat - station) latRad lonRad
      (Numpy.real.degrees (Horizontal.elevation enu),
        remainder (Numpy.real.degrees (Horizontal.azimuth enu)) fullTurn) := by
  rw [← range_ecefToEnu latRad lonRad] at h
  rw [computeElevationAzimuth_eq]
  apply (if_neg (not_lt_of_ge h)).trans (lookAngles_real _)

theorem computeElevationAzimuth_of_near {sat station : Fin 3 → ℝ}
    (h : Horizontal.range (sat - station) < tooNear)
    : computeElevationAzimuth Numpy.real sat station latRad lonRad = (0, 0) := by
  rw [← range_ecefToEnu latRad lonRad] at h
  rw [computeElevationAzimuth_eq]
  apply if_pos h

theorem elevation_degrees_mem (v : Fin 3 → ℝ)
    : -90 ≤ Numpy.real.degrees (Horizontal.elevation v)
        ∧ Numpy.real.degrees (Horizontal.elevation v) ≤ 90 := by
  obtain ⟨hlow, hhigh⟩ := Horizontal.elevation_mem v
  rw [← Numpy.degrees_half_pi, ← Numpy.degrees_neg]
  exact ⟨Numpy.degrees_le_degrees hlow, Numpy.degrees_le_degrees hhigh⟩

theorem direction_remainder (el az : ℝ)
    : Horizontal.direction el (Numpy.real.radians (remainder (Numpy.real.degrees az) fullTurn))
        = Horizontal.direction el az := by
  have hturns : remainder (Numpy.real.degrees az) fullTurn
      = Numpy.real.degrees az + (-⌊Numpy.real.degrees az / fullTurn⌋ : ℤ) * fullTurn := by
    unfold remainder
    rw [Int.cast_neg]
    ring
  unfold Horizontal.direction
  rw [hturns, radians_add_turns, Numpy.radians_degrees, Real.sin_add_int_mul_two_pi,
    Real.cos_add_int_mul_two_pi]

variable (s : Sighting)

theorem Sighting.radians_mem
    : -(Real.pi / 2) ≤ Numpy.real.radians s.elevation
        ∧ Numpy.real.radians s.elevation ≤ Real.pi / 2 := by
  rw [← Numpy.radians_ninety, ← Numpy.radians_neg]
  exact ⟨Numpy.radians_le_radians s.elevationMem.left, Numpy.radians_le_radians s.elevationMem.right⟩

theorem Sighting.cos_pos (h : |s.elevation| ≠ 90) : 0 < Real.cos (Numpy.real.radians s.elevation) := by
  obtain ⟨hlow, hhigh⟩ := abs_lt.mp (lt_of_le_of_ne (abs_le.mpr s.elevationMem) h)
  apply Real.cos_pos_of_mem_Ioo
  rw [← Numpy.radians_ninety, ← Numpy.radians_neg]
  exact ⟨Numpy.radians_lt_radians hlow, Numpy.radians_lt_radians hhigh⟩

theorem Sighting.cos_eq_zero (h : |s.elevation| = 90) : Real.cos (Numpy.real.radians s.elevation) = 0 := by
  rcases eq_or_eq_neg_of_abs_eq h with h | h
  . rw [h, Numpy.radians_ninety, Real.cos_pi_div_two]
  . rw [h, Numpy.radians_neg, Real.cos_neg, Numpy.radians_ninety, Real.cos_pi_div_two]

theorem Sighting.range_pos : 0 < s.range := lt_of_lt_of_le tooNear_pos s.rangeLe

theorem ecefToEnu_place (station : Fin 3 → ℝ)
    : ecefToEnu Numpy.real (place station latRad lonRad s - station) latRad lonRad = s.enu := by
  unfold place
  rw [add_sub_cancel_left, ecefToEnu_transpose]

theorem azimuth_enu
    : remainder (Numpy.real.degrees (Horizontal.azimuth s.enu)) fullTurn
        = if |s.elevation| = 90 then 0 else s.azimuth := by
  unfold Sighting.enu
  split
  . next h =>
    rw [Horizontal.azimuth_direction_of_cos_eq_zero (s.cos_eq_zero h), Numpy.degrees_eq, zero_mul]
    apply remainder_eq_self 0 fullTurn_pos ⟨le_refl 0, fullTurn_pos⟩
  . next h =>
    obtain ⟨k, hk⟩ := @Horizontal.azimuth_direction s.range _ (Numpy.real.radians s.azimuth) s.range_pos
      (s.cos_pos h)
    rw [hk, degrees_add_turns, Numpy.degrees_radians, remainder_add_turns _ fullTurn_pos,
      remainder_eq_self _ fullTurn_pos s.azimuthMem]

variable {sat station : Fin 3 → ℝ} (hrange : tooNear ≤ Horizontal.range (sat - station))

noncomputable def sight : Sighting where
  range := Horizontal.range (sat - station)
  elevation := Numpy.real.degrees
    (Horizontal.elevation (ecefToEnu Numpy.real (sat - station) latRad lonRad))
  azimuth := remainder
    (Numpy.real.degrees (Horizontal.azimuth (ecefToEnu Numpy.real (sat - station) latRad lonRad))) fullTurn
  rangeLe := hrange
  elevationMem := elevation_degrees_mem _
  azimuthMem := remainder_mem _ fullTurn_pos

theorem enu_sight
    : (sight latRad lonRad hrange).enu = ecefToEnu Numpy.real (sat - station) latRad lonRad := by
  have hpos := lt_of_lt_of_le tooNear_pos hrange
  unfold Sighting.enu sight
  dsimp only
  rw [← range_ecefToEnu latRad lonRad] at hpos ⊢
  rw [direction_remainder, Numpy.radians_degrees]
  apply Horizontal.range_smul_direction _ hpos

theorem place_sight : place station latRad lonRad (sight latRad lonRad hrange) = sat := by
  unfold place
  rw [enu_sight, transpose_ecefToEnu, add_sub_cancel]

/--
The angles, with the range, are the place of the satellite in the sky of the station; and at each place
in the sky the angles are found again, but for the azimuth straight up and straight down.
-/
theorem computeElevationAzimuth_roundTrip (station : Fin 3 → ℝ) (latRad lonRad : ℝ)
    : (∀ sat, tooNear ≤ Horizontal.range (sat - station)
        → ∃ s : Sighting, place station latRad lonRad s = sat
          ∧ s.range = Horizontal.range (sat - station)
          ∧ computeElevationAzimuth Numpy.real sat station latRad lonRad = (s.elevation, s.azimuth))
        ∧
      ∀ s : Sighting,
        computeElevationAzimuth Numpy.real (place station latRad lonRad s) station latRad lonRad
          = (s.elevation, if |s.elevation| = 90 then 0 else s.azimuth) := by
  constructor
  . intro sat hrange
    exact ⟨sight latRad lonRad hrange, place_sight latRad lonRad hrange, rfl,
      computeElevationAzimuth_real latRad lonRad hrange⟩
  . intro s
    have hrange : Horizontal.range (place station latRad lonRad s - station) = s.range := by
      rw [← range_ecefToEnu latRad lonRad, ecefToEnu_place]
      apply Horizontal.range_direction s.range_pos
    obtain ⟨hlow, hhigh⟩ := s.radians_mem
    rw [computeElevationAzimuth_real latRad lonRad (hrange ▸ s.rangeLe)]
    dsimp only
    rw [ecefToEnu_place, azimuth_enu]
    congr 1
    unfold Sighting.enu
    rw [Horizontal.elevation_direction s.range_pos hlow hhigh, Numpy.degrees_radians]

noncomputable def eastern : Sighting where
  range := 400
  elevation := 30
  azimuth := 90
  rangeLe := by
    unfold tooNear
    norm_num
  elevationMem := by norm_num
  azimuthMem := by
    unfold fullTurn
    norm_num

theorem computeElevationAzimuth_roundTrip_eastern
    : (∃ s : Sighting, place 0 0 0 s = ![400, 0, 0]
          ∧ s.range = Horizontal.range (![400, 0, 0] - 0)
          ∧ computeElevationAzimuth Numpy.real ![400, 0, 0] 0 0 0 = (s.elevation, s.azimuth))
        ∧
      computeElevationAzimuth Numpy.real (place 0 0 0 eastern) 0 0 0 = (30, 90) := by
  have hrange : Horizontal.range (![400, 0, 0] - 0) = 400 := by
    rw [Horizontal.range, sub_zero, Vec3.dotProduct_self, Real.sqrt_eq_iff_mul_self_eq_of_pos]
    . simp
      norm_num
    . norm_num
  constructor
  . apply (computeElevationAzimuth_roundTrip 0 0 0).left
    rw [hrange]
    exact eastern.rangeLe
  . rw [(computeElevationAzimuth_roundTrip 0 0 0).right eastern]
    unfold eastern
    norm_num

end CoordinateConverter
end SdaSystem
