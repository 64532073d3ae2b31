import SdaSystem.Library.PyFloat
import SdaSystem.Library.TrueRuns

/-!
This module contains the extraction of pass windows from sampled elevations, in any arithmetic: exactly,
or as Python computes. Times are seconds. A sample that is not finite is `none`; after its replacement
every sample is a number, so the guard against other values in `_interpolate_crossing` has no
counterpart here.
-/

open TrueRuns

namespace SdaSystem
namespace PassDetector

def seconds (t : Int) : Rat :=
  mkRat t 1000000

theorem seconds_eq (t : Int) : seconds t = (t : Rat) / 1000000 := by
  unfold seconds
  rw [Rat.mkRat_eq_div]
  norm_num

theorem seconds_lt_seconds_iff {a b : Int} : seconds a < seconds b ↔ a < b := by
  rw [seconds_eq, seconds_eq, div_lt_div_iff_of_pos_right (by norm_num), Int.cast_lt]

theorem seconds_le_seconds_iff {a b : Int} : seconds a ≤ seconds b ↔ a ≤ b := by
  rw [seconds_eq, seconds_eq, div_le_div_iff_of_pos_right (by norm_num), Int.cast_le]

/-- What a float operation makes of its exact result, and the seconds of `timedelta(seconds=x)`. -/
structure Arith where
  fl : Rat → Rat
  timedelta : Rat → Rat
  fl_mono : Monotone fl
  fl_neg : ∀ x, fl (-x) = -fl x
  timedelta_mono : Monotone timedelta
  timedelta_neg : ∀ x, timedelta (-x) = -timedelta x

namespace Arith

def exact : Arith where
  fl x := x
  timedelta x := x
  fl_mono := monotone_id
  fl_neg _ := rfl
  timedelta_mono := monotone_id
  timedelta_neg _ := rfl

@[simp]
theorem exact_fl (x : Rat) : exact.fl x = x :=
  rfl

@[simp]
theorem exact_timedelta (x : Rat) : exact.timedelta x = x :=
  rfl

theorem seconds_timedelta_neg (x : Rat)
    : seconds (PyFloat.timedelta (-x)) = -seconds (PyFloat.timedelta x) := by
  rw [PyFloat.timedelta_neg, seconds_eq, seconds_eq, Int.cast_neg, neg_div]

theorem seconds_timedelta_mono : Monotone fun x => seconds (PyFloat.timedelta x) :=
  fun _ _ h => seconds_le_seconds_iff.mpr (PyFloat.timedelta_mono h)

def python : Arith where
  fl := PyFloat.fl
  timedelta x := seconds (PyFloat.timedelta x)
  fl_mono := PyFloat.fl_mono
  fl_neg := PyFloat.fl_neg
  timedelta_mono := seconds_timedelta_mono
  timedelta_neg := seconds_timedelta_neg

end Arith

def nanSentinel : Rat := -999

structure Position where
  x : Rat
  y : Rat
  z : Rat
  deriving DecidableEq, Repr, Inhabited

structure Config where
  -- `PROPAGATION_STEP_SECONDS`
  propagationStep : Rat
  -- `MIN_PASS_DURATION_SECONDS`
  minPassDuration : Rat
  -- The azimuth of a position, as the station sees it.
  azimuth : Position → Rat

structure PassRecord where
  riseTime : Rat
  setTime : Rat
  durationSeconds : Rat
  maxElevation : Rat
  maxElevationTime : Rat
  azimuthAtRise : Rat
  azimuthAtSet : Rat
  azimuthAtMax : Rat
  truncatedStart : Bool
  truncatedEnd : Bool
  hasDataGap : Bool
  deriving DecidableEq, Repr

structure Crossing where
  time : Rat
  frac : Rat
  left : Int
  right : Int
  deriving DecidableEq, Repr

def clip (x lo hi : Rat) : Rat :=
  min (max x lo) hi

section

variable (ar : Arith) (times elevations : List Rat)

def interpolateCrossing (idx : Nat) (threshold : Rat) (isRise : Bool) : Crossing :=
  let n := times.length
  let left := if isRise then idx - 1 else idx
  let right := if isRise then idx else idx + 1
  if isRise ∧ idx = 0 then
    { time := times.getD 0 0, frac := 0, left := 0, right := 0 }
  else if right ≥ n then
    { time := times.getD (n - 1) 0, frac := 1, left := n - 2, right := n - 1 }
  else
    let elevLeft := elevations.getD left 0
    let elevRight := elevations.getD right 0
    let deltaElev := ar.fl (elevRight - elevLeft)
    if |deltaElev| < ar.fl (1 / 10 ^ 12) then
      {
        time := times.getD (if isRise then left else right) 0
        frac := if isRise then 0 else 1
        left
        right
      }
    else
      let frac := clip (ar.fl (ar.fl (threshold - elevLeft) / deltaElev)) 0 1
      let dt := ar.fl (times.getD right 0 - times.getD left 0)
      { time := times.getD left 0 + ar.timedelta (ar.fl (frac * dt)), frac, left, right }

def refineMaxElevation (maxI : Nat) (step : Rat) : Rat × Rat :=
  let elC := elevations.getD maxI 0
  if maxI = 0 ∨ maxI + 1 ≥ times.length then
    (elC, times.getD maxI 0)
  else
    let elL := elevations.getD (maxI - 1) 0
    let elR := elevations.getD (maxI + 1) 0
    if elL ≤ nanSentinel ∨ elR ≤ nanSentinel then
      (elC, times.getD maxI 0)
    else
      let twoA := ar.fl (ar.fl (elL - ar.fl (2 * elC)) + elR)
      if twoA ≥ 0 then
        (elC, times.getD maxI 0)
      else
        let tStar := ar.fl (-ar.fl (elR - elL) / ar.fl (2 * twoA))
        -- Only the offset is clamped, not the elevation.
        let refinedElev := ar.fl (elC - ar.fl (ar.fl (ar.fl (elR - elL) ^ 2) / ar.fl (4 * twoA)))
        let tStar := clip tStar (-1) 1
        (refinedElev, times.getD maxI 0 + ar.timedelta (ar.fl (tStar * step)))

end

def interpolatedEcef (ar : Arith) (positions : List Position) (c : Crossing) : Position :=
  if c.left = c.right then
    positions.getD c.left.toNat default
  else
    let p := positions.getD (max 0 c.left).toNat default
    let q := positions.getD (min (positions.length - 1 : Int) c.right).toNat default
    {
      x := ar.fl (p.x + ar.fl (c.frac * ar.fl (q.x - p.x)))
      y := ar.fl (p.y + ar.fl (c.frac * ar.fl (q.y - p.y)))
      z := ar.fl (p.z + ar.fl (c.frac * ar.fl (q.z - p.z)))
    }

def argmax (xs : List Rat) : Nat :=
  match xs.max? with
  | some m => xs.idxOf m
  | none => 0

def sanitize (elevations : List (Option Rat)) : List Rat :=
  elevations.map (·.getD nanSentinel)

def windows (elevations : List Rat) (mask : Rat) : List (Nat × Nat) :=
  let above := elevations.map fun e => decide (e ≥ mask)
  let transitions := diff (0 :: (above.map toInt ++ [0]))
  List.zip (indicesOf 1 transitions) (indicesOf (-1) transitions)

def rawMaxI (elevations : List Rat) (riseI setI : Nat) : Nat :=
  riseI + argmax ((elevations.take setI).drop riseI)

section

variable (ar : Arith) (cfg : Config) (elevations : List (Option Rat)) (times : List Rat)
variable (positions : List Position) (mask : Rat)

/-- The crossing times of a window, unless it is skipped. -/
def passTimes (window : Nat × Nat) : Option (Crossing × Crossing) :=
  let elevs := sanitize elevations
  let rise := interpolateCrossing ar times elevs window.1 mask true
  let set := interpolateCrossing ar times elevs (window.2 - 1) mask false
  if set.time ≤ rise.time then
    none
  else if ar.fl (set.time - rise.time) < cfg.minPassDuration then
    none
  else
    some (rise, set)

def stepSeconds : Rat :=
  ar.fl (if times.length ≥ 2 then times.getD 1 0 - times.getD 0 0 else cfg.propagationStep)

def passOf (window : Nat × Nat) : Option PassRecord := do
  let (riseI, setI) := window
  let (rise, set) ← passTimes ar cfg elevations times mask window
  let elevs := sanitize elevations
  let maxI := rawMaxI elevs riseI setI
  let (maxElevation, maxElevationTime) :=
    refineMaxElevation ar times elevs maxI (stepSeconds ar cfg times)
  return {
    riseTime := rise.time
    setTime := set.time
    durationSeconds := ar.fl (set.time - rise.time)
    maxElevation
    maxElevationTime
    azimuthAtRise := cfg.azimuth (interpolatedEcef ar positions rise)
    azimuthAtSet := cfg.azimuth (interpolatedEcef ar positions set)
    azimuthAtMax := cfg.azimuth (positions.getD maxI default)
    truncatedStart := riseI = 0 ∧ elevs.getD 0 0 ≥ mask
    truncatedEnd := setI = times.length
    hasDataGap := ((elevations.take setI).drop riseI).any (·.isNone)
  }

def extractPasses : List PassRecord :=
  (windows (sanitize elevations) mask).filterMap (passOf ar cfg elevations times positions mask)

end

/-- The columns of `ground_stations` that the detector reads, within the checks of the schema. -/
structure Station where
  stationId : String
  latitude : Rat
  longitude : Rat
  altitudeM : Rat
  elevationMaskDeg : Rat
  latitudeRange : -90 ≤ latitude ∧ latitude ≤ 90
  longitudeRange : -180 ≤ longitude ∧ longitude ≤ 180
  altitudeNonneg : 0 ≤ altitudeM

def maxDays : Nat := 3652058

structure Settings where
  propagationDays : Nat
  propagationStepSeconds : Nat
  minPassDurationSeconds : Nat
  stepPos : 0 < propagationStepSeconds
  daysLe : propagationDays ≤ maxDays

/-- `coord_converter`, which treats each sample on its own. -/
structure CoordConverter where
  temeToEcef : Position → Int → Position
  elevation : Station → Position → Option Rat
  azimuth : Station → Position → Rat

inductive ValueError where
  | rows (positions times : Nat)
  | latitude (latDeg : Rat)
  | longitude (lonDeg : Rat)
  | altitude (altM : Rat)
  deriving DecidableEq

def Settings.config (settings : Settings) (coords : CoordConverter) (station : Station) : Config where
  propagationStep := mkRat settings.propagationStepSeconds 1
  minPassDuration := mkRat settings.minPassDurationSeconds 1
  azimuth := coords.azimuth station

section

variable (coords : CoordConverter) (positions : List Position) (times : List Int) (station : Station)

def ecefPositions : List Position :=
  List.zipWith coords.temeToEcef positions times

def elevationsAt : List (Option Rat) :=
  (ecefPositions coords positions times).map (coords.elevation station)

def detectPasses (settings : Settings) : Except ValueError (List PassRecord) :=
  if times.length = 0 then
    .ok []
  else if positions.length ≠ times.length then
    .error (.rows positions.length times.length)
  else if ¬ (-90 ≤ station.latitude ∧ station.latitude ≤ 90) then
    .error (.latitude station.latitude)
  else if ¬ (-180 ≤ station.longitude ∧ station.longitude ≤ 180) then
    .error (.longitude station.longitude)
  else if station.altitudeM < 0 then
    .error (.altitude station.altitudeM)
  else
    .ok (extractPasses .python (settings.config coords station)
      (elevationsAt coords positions times station) (times.map seconds)
      (ecefPositions coords positions times) station.elevationMaskDeg)

end

end PassDetector
end SdaSystem
