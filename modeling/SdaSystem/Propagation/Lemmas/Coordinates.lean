import SdaSystem.Propagation.Impl.Coordinates

namespace SdaSystem
namespace CoordinateConverter

variable {K : Type} [Field K] (np : Numpy K)

section

variable (gast : Int → K) {n : Nat} (positions : Fin n → Fin 3 → K) (times : Fin n → Int)

theorem temeToEcef_eq (posGcrsKm : Fin 3 → K) (utcTime : Int)
    : temeToEcef np gast posGcrsKm utcTime
        =
      let gst := gast utcTime * radPerSiderealHour np
      ![
        np.cos gst * Vec3.x posGcrsKm + np.sin gst * Vec3.y posGcrsKm,
        -np.sin gst * Vec3.x posGcrsKm + np.cos gst * Vec3.y posGcrsKm,
        Vec3.z posGcrsKm
      ] := by
  let gst := gast utcTime * radPerSiderealHour np
  have hx : Vec3.x (temeToEcef np gast posGcrsKm utcTime)
      = dotProduct ![np.cos gst, np.sin gst, 0] posGcrsKm := rfl
  have hy : Vec3.y (temeToEcef np gast posGcrsKm utcTime)
      = dotProduct ![-np.sin gst, np.cos gst, 0] posGcrsKm := rfl
  have hz : Vec3.z (temeToEcef np gast posGcrsKm utcTime) = dotProduct ![0, 0, 1] posGcrsKm := rfl
  rw [Vec3.dotProduct_eq] at hx hy hz
  apply Vec3.ext
  . simpa using hx
  . simpa using hy
  . simpa using hz

theorem temeToEcefBatch_eq (i : Fin n)
    : temeToEcefBatch np gast positions times i = temeToEcef np gast (positions i) (times i) := by
  rw [temeToEcef_eq]
  rfl

end

variable (delta : Fin 3 → K) (latRad lonRad : K)

theorem ecefToEnu_east
    : Vec3.x (ecefToEnu np delta latRad lonRad)
        = -np.sin lonRad * Vec3.x delta + np.cos lonRad * Vec3.y delta := by
  have hrow : Vec3.x (ecefToEnu np delta latRad lonRad)
      = dotProduct ![-np.sin lonRad, np.cos lonRad, 0] delta := rfl
  rw [hrow, Vec3.dotProduct_eq]
  simp

theorem ecefToEnu_north
    : Vec3.y (ecefToEnu np delta latRad lonRad)
        =
      -np.sin latRad * np.cos lonRad * Vec3.x delta - np.sin latRad * np.sin lonRad * Vec3.y delta
        + np.cos latRad * Vec3.z delta := by
  have hrow : Vec3.y (ecefToEnu np delta latRad lonRad)
      = dotProduct
          ![-np.sin latRad * np.cos lonRad, -np.sin latRad * np.sin lonRad, np.cos latRad] delta := rfl
  rw [hrow, Vec3.dotProduct_eq]
  simp
  ring

theorem ecefToEnu_up
    : Vec3.z (ecefToEnu np delta latRad lonRad)
        =
      np.cos latRad * np.cos lonRad * Vec3.x delta + np.cos latRad * np.sin lonRad * Vec3.y delta
        + np.sin latRad * Vec3.z delta := by
  have hrow : Vec3.z (ecefToEnu np delta latRad lonRad)
      = dotProduct
          ![np.cos latRad * np.cos lonRad, np.cos latRad * np.sin lonRad, np.sin latRad] delta := rfl
  rw [hrow, Vec3.dotProduct_eq]
  simp

variable [LinearOrder K] [FloorRing K]

def lookAngles (enu : Fin 3 → K) : K × K :=
  let rng := np.sqrt (dotProduct enu enu)
  (np.degrees (np.arcsin (clip (Vec3.z enu / rng) (-1) 1)),
    remainder (np.degrees (np.arctan2 (Vec3.x enu) (Vec3.y enu))) fullTurn)

variable {n : Nat} (sats : Fin n → Fin 3 → K) (sat station : Fin 3 → K)

theorem computeElevationAzimuth_eq
    : computeElevationAzimuth np sat station latRad lonRad
        =
      let enu := ecefToEnu np (sat - station) latRad lonRad
      if np.sqrt (dotProduct enu enu) < tooNear then (0, 0) else lookAngles np enu := rfl

theorem computeElevationAzimuthBatch_apply (i : Fin n)
    : ((computeElevationAzimuthBatch np sats station latRad lonRad).1 i,
          (computeElevationAzimuthBatch np sats station latRad lonRad).2 i)
        =
      let enu := ecefToEnu np (sats i - station) latRad lonRad
      if np.sqrt (dotProduct enu enu) > tooNear then lookAngles np enu else (0, 0) := by
  have heast := ecefToEnu_east np (sats i - station) latRad lonRad
  have hnorth := ecefToEnu_north np (sats i - station) latRad lonRad
  have hup := ecefToEnu_up np (sats i - station) latRad lonRad
  simp only [Vec3.x_sub, Vec3.y_sub, Vec3.z_sub] at heast hnorth hup
  unfold computeElevationAzimuthBatch lookAngles
  dsimp only [Function.comp, Pi.add_apply, Pi.sub_apply, Pi.smul_apply, Pi.pow_apply, smul_eq_mul,
    Vec3.x_sub, Vec3.y_sub, Vec3.z_sub]
  simp only [← heast, ← hnorth, ← hup, ← Vec3.dotProduct_self]
  split
  . rfl
  . rfl

theorem computeElevationAzimuthBatch_eq (i : Fin n)
    : ((computeElevationAzimuthBatch np sats station latRad lonRad).1 i,
          (computeElevationAzimuthBatch np sats station latRad lonRad).2 i)
        =
      let enu := ecefToEnu np (sats i - station) latRad lonRad
      if np.sqrt (dotProduct enu enu) = tooNear then
        (0, 0)
      else
        computeElevationAzimuth np (sats i) station latRad lonRad := by
  rw [computeElevationAzimuthBatch_apply, computeElevationAzimuth_eq]
  dsimp only
  obtain hlt | heq | hgt := lt_trichotomy
    (np.sqrt (dotProduct (ecefToEnu np (sats i - station) latRad lonRad)
      (ecefToEnu np (sats i - station) latRad lonRad))) tooNear
  . rw [if_neg (not_lt_of_gt hlt), if_neg (ne_of_lt hlt), if_pos hlt]
  . rw [if_neg (not_lt_of_ge (le_of_eq heq)), if_pos heq]
  . rw [if_pos hgt, if_neg (ne_of_gt hgt), if_neg (not_lt_of_gt hgt)]

end CoordinateConverter

namespace PassDetector

open CoordinateConverter

/--
What `detect_passes` computes with arrays for the samples of a window is what its converter gives for one
sample after the other, and what the methods for one position give, unless a range is on the edge of what
is too near.
-/
theorem elevationsAt_coordConverter (np : Numpy Rat) (gast : Int → Rat) (samples : List (Position × Int))
    (station : Station)
    : let positions i := (samples.get i).1.array
      let times i := (samples.get i).2
      let ecef := temeToEcefBatch np gast positions times
      let stationEcef := stationToEcef np station.latitude station.longitude station.altitudeM
      let latRad := np.radians station.latitude
      let lonRad := np.radians station.longitude
      let angles := computeElevationAzimuthBatch np ecef stationEcef latRad lonRad
      ecefPositions (coordConverter np gast) (samples.map (·.1)) (samples.map (·.2))
            = List.ofFn (.ofArray ∘ ecef)
        ∧
      elevationsAt (coordConverter np gast) (samples.map (·.1)) (samples.map (·.2)) station
            = List.ofFn (some ∘ angles.1)
        ∧
      ∀ i, ecef i = temeToEcef np gast (positions i) (times i)
        ∧ (angles.1 i, angles.2 i)
            =
          let enu := ecefToEnu np (ecef i - stationEcef) latRad lonRad
          if np.sqrt (dotProduct enu enu) = tooNear then
            (0, 0)
          else
            computeElevationAzimuth np (ecef i) stationEcef latRad lonRad := by
  intro positions times ecef stationEcef latRad lonRad angles
  have hecef : ∀ i, ecef i = temeToEcef np gast (positions i) (times i) :=
    temeToEcefBatch_eq np gast positions times
  have hpositions : ecefPositions (coordConverter np gast) (samples.map (·.1)) (samples.map (·.2))
      = List.ofFn (.ofArray ∘ ecef) := by
    unfold ecefPositions
    apply List.ext_getElem
    . simp
    . intro i hi hi'
      rw [List.getElem_zipWith, List.getElem_map, List.getElem_map, List.getElem_ofFn, Function.comp,
        hecef]
      rfl
  refine ⟨hpositions, ?_, fun i => ⟨hecef i, computeElevationAzimuthBatch_eq np latRad lonRad ecef _ i⟩⟩
  unfold elevationsAt
  rw [hpositions, List.map_ofFn]
  -- A row of the batch reads its own position only.
  rfl

end PassDetector
end SdaSystem
