import SdaSystem.Library.Ellipsoid
import SdaSystem.Propagation.Lemmas.LookAngles

/-!
What is above the horizon is in sight: the direction up of a station is the normal of the ellipsoid below
it, so the ellipsoid is not between the station and a satellite whose elevation is not negative.
-/

namespace SdaSystem
namespace CoordinateConverter

open Ellipsoid

noncomputable def wgs84 : Fin 3 → ℝ :=
  ![kmPerMetre * semiMajorAxis, kmPerMetre * semiMajorAxis, kmPerMetre * semiMinorAxis]

noncomputable def up (latRad lonRad : ℝ) : Fin 3 → ℝ :=
  ![Real.cos latRad * Real.cos lonRad, Real.cos latRad * Real.sin lonRad, Real.sin latRad]

theorem kmPerMetre_pos : (0 : ℝ) < kmPerMetre := by
  unfold kmPerMetre
  norm_num

theorem semiMajorAxis_pos : (0 : ℝ) < semiMajorAxis := by
  unfold semiMajorAxis
  norm_num

theorem semiMinorAxis_pos : (0 : ℝ) < semiMinorAxis := by
  unfold semiMinorAxis semiMajorAxis flattening
  norm_num

theorem one_sub_eccentricitySquared
    : 1 - eccentricitySquared = (semiMinorAxis : ℝ) ^ 2 / semiMajorAxis ^ 2 := by
  have hpos := semiMajorAxis_pos
  unfold eccentricitySquared
  field_simp
  ring

theorem eccentricitySquared_nonneg : (0 : ℝ) ≤ eccentricitySquared := by
  unfold eccentricitySquared semiMinorAxis semiMajorAxis flattening
  norm_num

variable (lat lon latDeg lonDeg altM : ℝ)

noncomputable def curvatureRadius : ℝ :=
  semiMajorAxis / √(1 - eccentricitySquared * Real.sin lat ^ 2)

theorem curvature_pos : 0 < 1 - eccentricitySquared * Real.sin lat ^ 2 := by
  have hratio : 0 < (semiMinorAxis : ℝ) ^ 2 / semiMajorAxis ^ 2 :=
    div_pos (pow_pos semiMinorAxis_pos 2) (pow_pos semiMajorAxis_pos 2)
  have hle := mul_le_mul_of_nonneg_left (Real.sin_sq_le_one lat) eccentricitySquared_nonneg
  rw [← one_sub_eccentricitySquared] at hratio
  linarith

theorem curvatureRadius_pos : 0 < curvatureRadius lat :=
  div_pos semiMajorAxis_pos (Real.sqrt_pos.mpr (curvature_pos lat))

theorem curvatureRadius_sq
    : curvatureRadius lat ^ 2 * (1 - eccentricitySquared * Real.sin lat ^ 2) = semiMajorAxis ^ 2 := by
  have hpos := curvature_pos lat
  unfold curvatureRadius
  rw [div_pow, Real.sq_sqrt (le_of_lt hpos), div_mul_cancel₀ _ (ne_of_gt hpos)]

theorem stationToEcef_real
    : stationToEcef Numpy.real latDeg lonDeg altM
        =
      let lat := Numpy.real.radians latDeg
      let lon := Numpy.real.radians lonDeg
      (kmPerMetre : ℝ) • ![
        (curvatureRadius lat + altM) * Real.cos lat * Real.cos lon,
        (curvatureRadius lat + altM) * Real.cos lat * Real.sin lon,
        (curvatureRadius lat * (1 - eccentricitySquared) + altM) * Real.sin lat
      ] := rfl

theorem stationToEcef_eq
    : stationToEcef Numpy.real latDeg lonDeg altM
        =
      stationToEcef Numpy.real latDeg lonDeg 0
        + (kmPerMetre * altM) • up (Numpy.real.radians latDeg) (Numpy.real.radians lonDeg) := by
  rw [stationToEcef_real, stationToEcef_real, up]
  funext i
  fin_cases i
  all_goals
    simp
    ring

/-- From a product with a point at altitude 0 to the height over the plane through the centre. -/
noncomputable def heightScale : ℝ :=
  curvatureRadius lat / (kmPerMetre * semiMajorAxis ^ 2)

theorem heightScale_pos : 0 < heightScale lat :=
  div_pos (curvatureRadius_pos lat) (mul_pos kmPerMetre_pos (pow_pos semiMajorAxis_pos 2))

theorem normalAt_foot
    : normalAt wgs84 (stationToEcef Numpy.real latDeg lonDeg 0)
        =
      heightScale (Numpy.real.radians latDeg)
        • up (Numpy.real.radians latDeg) (Numpy.real.radians lonDeg) := by
  have hscale := ne_of_gt kmPerMetre_pos
  have hmajor := ne_of_gt semiMajorAxis_pos
  have hminor := ne_of_gt semiMinorAxis_pos
  rw [stationToEcef_real, up, one_sub_eccentricitySquared]
  unfold normalAt wgs84 heightScale
  funext i
  fin_cases i
  all_goals
    simp
    field_simp

theorem dotProduct_foot_up
    : dotProduct (stationToEcef Numpy.real latDeg lonDeg 0)
          (up (Numpy.real.radians latDeg) (Numpy.real.radians lonDeg))
        =
      kmPerMetre * curvatureRadius (Numpy.real.radians latDeg)
        * (1 - eccentricitySquared * Real.sin (Numpy.real.radians latDeg) ^ 2) := by
  have hlat := Real.sin_sq_add_cos_sq (Numpy.real.radians latDeg)
  have hlon := Real.sin_sq_add_cos_sq (Numpy.real.radians lonDeg)
  rw [stationToEcef_real, up, Vec3.dotProduct_eq]
  simp only [Vec3.x_smul, Vec3.y_smul, Vec3.z_smul, Vec3.x_mk, Vec3.y_mk, Vec3.z_mk]
  grind

theorem form_foot (v : Fin 3 → ℝ)
    : form wgs84 v (stationToEcef Numpy.real latDeg lonDeg 0)
        =
      heightScale (Numpy.real.radians latDeg)
        * dotProduct v (up (Numpy.real.radians latDeg) (Numpy.real.radians lonDeg)) := by
  rw [form_eq_dotProduct, normalAt_foot, dotProduct_smul, smul_eq_mul]

theorem on_foot : On wgs84 (stationToEcef Numpy.real latDeg lonDeg 0) := by
  have hscale := ne_of_gt kmPerMetre_pos
  have hmajor := ne_of_gt semiMajorAxis_pos
  have hradius := curvatureRadius_sq (Numpy.real.radians latDeg)
  unfold On
  rw [form_foot, dotProduct_foot_up, heightScale, div_mul_eq_mul_div, div_eq_one_iff_eq (by positivity),
    ← hradius]
  ring

theorem dotProduct_up_self : dotProduct (up lat lon) (up lat lon) = 1 := by
  have hlat := Real.sin_sq_add_cos_sq lat
  have hlon := Real.sin_sq_add_cos_sq lon
  rw [up, Vec3.dotProduct_eq]
  simp only [Vec3.x_mk, Vec3.y_mk, Vec3.z_mk]
  grind

theorem dotProduct_up (v : Fin 3 → ℝ)
    : dotProduct v (up lat lon) = Vec3.z (ecefToEnu Numpy.real v lat lon) :=
  dotProduct_comm v (up lat lon)

variable {altM} {sat : Fin 3 → ℝ}

theorem form_station_le_iff
    : form wgs84 (stationToEcef Numpy.real latDeg lonDeg altM)
            (stationToEcef Numpy.real latDeg lonDeg 0)
          ≤ form wgs84 sat (stationToEcef Numpy.real latDeg lonDeg 0)
        ↔
      0 ≤ Vec3.z (ecefToEnu Numpy.real (sat - stationToEcef Numpy.real latDeg lonDeg altM)
        (Numpy.real.radians latDeg) (Numpy.real.radians lonDeg)) := by
  rw [← sub_nonneg, ← form_sub_left, form_foot, mul_nonneg_iff_of_pos_left (heightScale_pos _),
    dotProduct_up]

theorem one_le_form_station (halt : 0 ≤ altM)
    : 1 ≤ form wgs84 (stationToEcef Numpy.real latDeg lonDeg altM)
        (stationToEcef Numpy.real latDeg lonDeg 0) := by
  have hheight := mul_nonneg (le_of_lt (heightScale_pos (Numpy.real.radians latDeg)))
    (mul_nonneg (le_of_lt kmPerMetre_pos) halt)
  rw [stationToEcef_eq, form_add_left, on_foot, form_foot, smul_dotProduct, dotProduct_up_self,
    smul_eq_mul, mul_one]
  linarith

theorem clear_of_up (halt : 0 ≤ altM)
    (hup : 0 ≤ Vec3.z (ecefToEnu Numpy.real (sat - stationToEcef Numpy.real latDeg lonDeg altM)
      (Numpy.real.radians latDeg) (Numpy.real.radians lonDeg)))
    : Clear wgs84 (stationToEcef Numpy.real latDeg lonDeg altM) sat :=
  clear_of_le (on_foot latDeg lonDeg) (one_le_form_station latDeg lonDeg halt)
    ((form_station_le_iff latDeg lonDeg).mpr hup)

theorem clear_iff_up
    : Clear wgs84 (stationToEcef Numpy.real latDeg lonDeg 0) sat
        ↔
      0 ≤ Vec3.z (ecefToEnu Numpy.real (sat - stationToEcef Numpy.real latDeg lonDeg 0)
        (Numpy.real.radians latDeg) (Numpy.real.radians lonDeg)) := by
  rw [clear_iff_of_on (on_foot latDeg lonDeg), ← form_station_le_iff, on_foot]

theorem elevation_nonneg_iff {sat station : Fin 3 → ℝ}
    (hrange : tooNear ≤ Horizontal.range (sat - station))
    : 0 ≤ (computeElevationAzimuth Numpy.real sat station lat lon).1
        ↔
      0 ≤ Vec3.z (ecefToEnu Numpy.real (sat - station) lat lon) := by
  have hturn : 0 < 180 / Real.pi := div_pos (by norm_num) Real.pi_pos
  have hpos := lt_of_lt_of_le tooNear_pos hrange
  rw [← range_ecefToEnu lat lon] at hpos
  rw [computeElevationAzimuth_real lat lon hrange]
  dsimp only
  rw [Numpy.degrees_eq, mul_nonneg_iff_of_pos_right hturn, Horizontal.elevation, Real.arcsin_nonneg,
    le_div_iff₀ hpos, zero_mul]

/--
What a station has in its sky at an elevation of 0 or more is in its line of sight, and a station at
altitude 0 has nothing else in its line of sight.
-/
theorem clear_of_elevation (latDeg lonDeg : ℝ) {altM : ℝ} (halt : 0 ≤ altM) {sat : Fin 3 → ℝ}
    (hrange : tooNear ≤ Horizontal.range (sat - stationToEcef Numpy.real latDeg lonDeg altM))
    : let station := stationToEcef Numpy.real latDeg lonDeg altM
      let elevation := (computeElevationAzimuth Numpy.real sat station (Numpy.real.radians latDeg)
        (Numpy.real.radians lonDeg)).1
      (0 ≤ elevation → Clear wgs84 station sat)
        ∧ (altM = 0 → Clear wgs84 station sat → 0 ≤ elevation) := by
  dsimp only
  rw [elevation_nonneg_iff _ _ hrange]
  refine ⟨clear_of_up latDeg lonDeg halt, ?_⟩
  rintro rfl hclear
  apply (clear_iff_up latDeg lonDeg).mp hclear

theorem stationToEcef_origin
    : stationToEcef Numpy.real 0 0 0 = ![kmPerMetre * semiMajorAxis, 0, 0] := by
  have hzero : Numpy.real.radians 0 = 0 := zero_mul _
  rw [stationToEcef_real, hzero]
  apply Vec3.ext
  all_goals
    simp [curvatureRadius]

theorem range_overhead {height : ℝ} (h : 0 ≤ height)
    : Horizontal.range (![kmPerMetre * semiMajorAxis + height, 0, 0] - stationToEcef Numpy.real 0 0 0)
        = height := by
  rw [stationToEcef_origin, ← sq_eq_sq₀ (Horizontal.range_nonneg _) h, Horizontal.range_sq]
  simp only [Vec3.x_sub, Vec3.y_sub, Vec3.z_sub, Vec3.x_mk, Vec3.y_mk, Vec3.z_mk]
  ring

theorem clear_of_elevation_overhead
    : let station := stationToEcef Numpy.real 0 0 0
      let sat := ![kmPerMetre * semiMajorAxis + 400, 0, 0]
      let elevation := (computeElevationAzimuth Numpy.real sat station (Numpy.real.radians 0)
        (Numpy.real.radians 0)).1
      (0 ≤ elevation → Clear wgs84 station sat)
        ∧ ((0 : ℝ) = 0 → Clear wgs84 station sat → 0 ≤ elevation) := by
  apply clear_of_elevation 0 0 (le_refl 0)
  rw [range_overhead (by norm_num)]
  exact eastern.rangeLe

end CoordinateConverter
end SdaSystem
