import Mathlib.Algebra.Order.Floor.Ring
import Mathlib.Data.Rat.Floor
import SdaSystem.Library.Vec3
import SdaSystem.Propagation.Impl.PassDetector

/-!
This module contains the transforms from the frame of the propagation to the sky of a station, for one
position and for an array of them, in exact arithmetic. The functions of NumPy that are not arithmetic,
and the sidereal time that Skyfield gives for an instant, are arguments.
-/

namespace SdaSystem

structure Numpy (K : Type) where
  pi : K
  sin : K → K
  cos : K → K
  sqrt : K → K
  arcsin : K → K
  arctan2 : K → K → K

variable {K : Type} [Field K]

def Numpy.radians (np : Numpy K) (x : K) : K :=
  x * (np.pi / 180)

def Numpy.degrees (np : Numpy K) (x : K) : K :=
  x * (180 / np.pi)

namespace CoordinateConverter

-- `_A`, `_F`, `_B` and `_E2`: the WGS84 ellipsoid, in metres
def semiMajorAxis : K := 6378137

def flattening : K := 1 / (298257223563 / 10 ^ 9)

def semiMinorAxis : K := semiMajorAxis * (1 - flattening)

def eccentricitySquared : K := (semiMajorAxis ^ 2 - semiMinorAxis ^ 2) / semiMajorAxis ^ 2

def kmPerMetre : K := 1 / 1000

section

variable (np : Numpy K) (gast : Int → K)

def radPerSiderealHour : K := np.pi / 12

def temeToEcef (posGcrsKm : Fin 3 → K) (utcTime : Int) : Fin 3 → K :=
  let gst := gast utcTime * radPerSiderealHour np
  let cosG := np.cos gst
  let sinG := np.sin gst
  let r := !![
    cosG, sinG, 0;
    -sinG, cosG, 0;
    0, 0, 1
  ]
  r.mulVec posGcrsKm

def temeToEcefBatch (positionsGcrsKm : Fin n → Fin 3 → K) (times : Fin n → Int) : Fin n → Fin 3 → K :=
  let gst i := gast (times i) * radPerSiderealHour np
  let cosG := np.cos ∘ gst
  let sinG := np.sin ∘ gst
  let x i := Vec3.x (positionsGcrsKm i)
  let y i := Vec3.y (positionsGcrsKm i)
  let z i := Vec3.z (positionsGcrsKm i)
  let xEcef := cosG * x + sinG * y
  let yEcef := -sinG * x + cosG * y
  let zEcef := z
  fun i => ![xEcef i, yEcef i, zEcef i]

/-- The rows are the directions east, north and up, where the ellipsoid has this latitude and longitude. -/
def enuRotation (latRad lonRad : K) : Matrix (Fin 3) (Fin 3) K :=
  let sinLat := np.sin latRad
  let cosLat := np.cos latRad
  let sinLon := np.sin lonRad
  let cosLon := np.cos lonRad
  !![
    -sinLon, cosLon, 0;
    -sinLat * cosLon, -sinLat * sinLon, cosLat;
    cosLat * cosLon, cosLat * sinLon, sinLat
  ]

def ecefToEnu (deltaEcefKm : Fin 3 → K) (latRad lonRad : K) : Fin 3 → K :=
  (enuRotation np latRad lonRad).mulVec deltaEcefKm

def stationToEcef (latDeg lonDeg altM : K) : Fin 3 → K :=
  let lat := np.radians latDeg
  let lon := np.radians lonDeg
  let sinLat := np.sin lat
  let cosLat := np.cos lat
  let sinLon := np.sin lon
  let cosLon := np.cos lon
  let n := semiMajorAxis / np.sqrt (1 - eccentricitySquared * sinLat ^ 2)
  let xM := (n + altM) * cosLat * cosLon
  let yM := (n + altM) * cosLat * sinLon
  let zM := (n * (1 - eccentricitySquared) + altM) * sinLat
  (kmPerMetre : K) • ![xM, yM, zM]

end

section

variable [LinearOrder K] [FloorRing K] (np : Numpy K)

def clip (x lo hi : K) : K :=
  min (max x lo) hi

/-- The remainder of Python and NumPy, which has the sign of the divisor. -/
def remainder (x y : K) : K :=
  x - y * ⌊x / y⌋

def tooNear : K := 1 / 10 ^ 9

def fullTurn : K := 360

def computeElevationAzimuth (satEcefKm stationEcefKm : Fin 3 → K) (latRad lonRad : K) : K × K :=
  let delta := satEcefKm - stationEcefKm
  let enu := ecefToEnu np delta latRad lonRad
  let rng := np.sqrt (dotProduct enu enu)
  if rng < tooNear then
    (0, 0)
  else
    let elevation := np.degrees (np.arcsin (clip (Vec3.z enu / rng) (-1) 1))
    let azimuth := remainder (np.degrees (np.arctan2 (Vec3.x enu) (Vec3.y enu))) fullTurn
    (elevation, azimuth)

def computeElevationAzimuthBatch (satEcefKmBatch : Fin n → Fin 3 → K) (stationEcefKm : Fin 3 → K)
    (latRad lonRad : K) : (Fin n → K) × (Fin n → K) :=
  let deltas i := satEcefKmBatch i - stationEcefKm
  let x i := Vec3.x (deltas i)
  let y i := Vec3.y (deltas i)
  let z i := Vec3.z (deltas i)
  let sinLat := np.sin latRad
  let cosLat := np.cos latRad
  let sinLon := np.sin lonRad
  let cosLon := np.cos lonRad
  let east := -sinLon • x + cosLon • y
  let north := (-sinLat * cosLon) • x - (sinLat * sinLon) • y + cosLat • z
  let up := (cosLat * cosLon) • x + (cosLat * sinLon) • y + sinLat • z
  let ranges := np.sqrt ∘ (east ^ 2 + north ^ 2 + up ^ 2)
  let safeRange i := if ranges i > tooNear then ranges i else 1
  let elevations i :=
    if ranges i > tooNear then
      np.degrees (np.arcsin (clip (up i / safeRange i) (-1) 1))
    else
      0
  let azimuths i :=
    if ranges i > tooNear then
      remainder (np.degrees (np.arctan2 (east i) (north i))) fullTurn
    else
      0
  (elevations, azimuths)

end

end CoordinateConverter

namespace PassDetector

open CoordinateConverter

def Position.array (p : Position) : Fin 3 → Rat :=
  ![p.x, p.y, p.z]

def Position.ofArray (v : Fin 3 → Rat) : Position where
  x := Vec3.x v
  y := Vec3.y v
  z := Vec3.z v

/-- `coord_converter`, as `detect_passes` uses it: arrays for the elevations, one position for an azimuth. -/
def coordConverter (np : Numpy Rat) (gast : Int → Rat) : CoordConverter where
  temeToEcef p t := .ofArray (CoordinateConverter.temeToEcef np gast p.array t)
  elevation station p :=
    let stationEcef := stationToEcef np station.latitude station.longitude station.altitudeM
    let batch : Fin 1 → Fin 3 → Rat := fun _ => p.array
    some ((computeElevationAzimuthBatch np batch stationEcef (np.radians station.latitude)
      (np.radians station.longitude)).1 ⟨0, Nat.zero_lt_one⟩)
  azimuth station p :=
    let stationEcef := stationToEcef np station.latitude station.longitude station.altitudeM
    (computeElevationAzimuth np p.array stationEcef (np.radians station.latitude)
      (np.radians station.longitude)).2

end PassDetector

end SdaSystem
