import SdaSystem.Propagation.Lemmas.DataGap
import SdaSystem.Propagation.Lemmas.LineOfSight

namespace SdaSystem
namespace PassDetector

open CoordinateConverter Ellipsoid
open PropagationResult (plainStation hourly hour)

section runs

variable {elevations : List Rat} {mask : Rat}

theorem exists_isRun {i j : Nat} (hij : i ≤ j) (hj : j < elevations.length)
    (habove : ∀ k, i ≤ k → k ≤ j → mask ≤ elevations.getD k 0)
    : ∃ riseI setI, IsRun elevations mask riseI setI ∧ riseI ≤ i ∧ j < setI := by
  have hrise : ∃ r, ∀ k, r ≤ k → k ≤ j → mask ≤ elevations.getD k 0 := ⟨i, habove⟩
  have hset : ∃ s, j < s ∧ (s < elevations.length → elevations.getD s 0 < mask) :=
    ⟨elevations.length, hj, fun hlt => absurd hlt (lt_irrefl _)⟩
  have hfirst : Nat.find hrise ≤ i := Nat.find_min' hrise habove
  have hlast : Nat.find hset ≤ elevations.length :=
    Nat.find_min' hset ⟨hj, fun hlt => absurd hlt (lt_irrefl _)⟩
  obtain ⟨hjset, hend⟩ := Nat.find_spec hset
  refine ⟨Nat.find hrise, Nat.find hset, ?_, hfirst, hjset⟩
  constructor
  case lt => omega
  case le => exact hlast
  case above =>
    intro k hk hk'
    by_cases hkj : k ≤ j
    . apply Nat.find_spec hrise k hk hkj
    . by_contra hbelow
      exact Nat.find_min hset hk' ⟨not_le.mp hkj, fun _ => not_le.mp hbelow⟩
  case before =>
    intro hpos
    by_contra hnot
    apply Nat.find_min hrise (show Nat.find hrise - 1 < Nat.find hrise by omega)
    intro k hk hkj
    by_cases heq : k = Nat.find hrise - 1
    . rw [heq]
      exact not_lt.mp hnot
    . apply Nat.find_spec hrise k (by omega) hkj
  case after => exact hend

end runs

section inSight

variable {settings : Settings} {coords : CoordConverter} {positions : List Position}
  {times : List Int} {station : Station} {err : ℝ}

noncomputable def Position.point (p : Position) : Fin 3 → ℝ :=
  ![(p.x : ℝ), (p.y : ℝ), (p.z : ℝ)]

noncomputable def Station.point (station : Station) : Fin 3 → ℝ :=
  stationToEcef Numpy.real station.latitude station.longitude station.altitudeM

noncomputable def Station.elevationOf (station : Station) (p : Position) : ℝ :=
  (computeElevationAzimuth Numpy.real p.point station.point (Numpy.real.radians station.latitude)
    (Numpy.real.radians station.longitude)).1

structure Accurate (coords : CoordConverter) (station : Station) (positions : List Position) (err : ℝ)
    : Prop where
  nonneg : 0 ≤ err
  close : ∀ p ∈ positions, ∀ e, coords.elevation station p = some e → |e - station.elevationOf p| ≤ err

theorem clear_of_elevationOf {p : Position} (h : 0 < station.elevationOf p)
    : Clear wgs84 station.point p.point := by
  have hrange : tooNear ≤ Horizontal.range (p.point - station.point) := by
    by_contra hnear
    unfold Station.elevationOf at h
    rw [computeElevationAzimuth_of_near _ _ (not_le.mp hnear)] at h
    exact lt_irrefl 0 h
  apply clear_of_up
  . exact_mod_cast station.altitudeNonneg
  . apply (elevation_nonneg_iff _ _ hrange).mp (le_of_lt h)

variable (coords positions times station)

def ecefAt (k : Nat) : Position :=
  (ecefPositions coords positions times).getD k default

variable {coords positions times station}

theorem ecefAt_mem (hlength : positions.length = times.length) {k : Nat} (hk : k < times.length)
    : ecefAt coords positions times k ∈ ecefPositions coords positions times := by
  have hk' : k < (ecefPositions coords positions times).length := by
    unfold ecefPositions
    rw [List.length_zipWith, hlength, min_self]
    exact hk
  unfold ecefAt
  rw [List.getD_eq_getElem _ _ hk']
  apply List.getElem_mem

theorem getD_sanitize_elevationsAt (hlength : positions.length = times.length) {k : Nat}
    (hk : k < times.length)
    : (sanitize (elevationsAt coords positions times station)).getD k 0
        = (coords.elevation station (ecefAt coords positions times k)).getD nanSentinel := by
  have hk' : k < (ecefPositions coords positions times).length := by
    unfold ecefPositions
    rw [List.length_zipWith, hlength, min_self]
    exact hk
  unfold sanitize elevationsAt ecefAt
  rw [List.map_map, List.getD_eq_getElem _ _ (by rwa [List.length_map]), List.getElem_map,
    List.getD_eq_getElem _ _ hk']
  rfl

theorem Accurate.clear (haccurate : Accurate coords station (ecefPositions coords positions times) err)
    (hlength : positions.length = times.length) {k : Nat} (hk : k < times.length)
    (h : err < (sanitize (elevationsAt coords positions times station)).getD k 0)
    : Clear wgs84 station.point (ecefAt coords positions times k).point := by
  have hnonneg := haccurate.nonneg
  rw [getD_sanitize_elevationsAt hlength hk] at h
  cases helevation : coords.elevation station (ecefAt coords positions times k) with
  | none =>
    rw [helevation] at h
    unfold nanSentinel at h
    norm_num at h
    linarith
  | some e =>
    rw [helevation, Option.getD_some] at h
    have hclose := haccurate.close _ (ecefAt_mem hlength hk) e helevation
    apply clear_of_elevationOf
    linarith [(abs_le.mp hclose).right]

theorem Accurate.clear_of_mem_extractPasses {cfg : Config} {positions' : List Position}
    (haccurate : Accurate coords station (ecefPositions coords positions times) err)
    (hlength : positions.length = times.length) (hincreasing : times.Pairwise (· < ·))
    (hkept : KeptSteps times) (hmask : err < station.elevationMaskDeg) {p : PassRecord}
    (hp : p ∈ extractPasses .python cfg (elevationsAt coords positions times station)
      (times.map seconds) positions' station.elevationMaskDeg)
    {k : Nat} (hk : k < times.length) (hrise : p.riseTime < seconds (times.getD k 0))
    (hset : seconds (times.getD k 0) < p.setTime)
    : Clear wgs84 station.point (ecefAt coords positions times k).point := by
  have hsamples : (elevationsAt coords positions times station).length = (times.map seconds).length := by
    rw [length_elevationsAt hlength, List.length_map]
  have hsanitized : (sanitize (elevationsAt coords positions times station)).length
      = (times.map seconds).length := by
    rw [sanitize, List.length_map, hsamples]
  obtain ⟨riseI, setI, hemitted, hpass⟩ := exists_run_of_mem hsamples hp
  rw [hpass.riseTime, ← getD_map_seconds hk] at hrise
  rw [hpass.setTime, ← getD_map_seconds hk] at hset
  apply haccurate.clear hlength hk
  obtain ⟨hlow, hhigh⟩ := mem_run_of_lt (increasing_map_seconds hincreasing)
    (keepsSteps_map_seconds hincreasing hkept) hsanitized hemitted.toIsRun (by simpa using hk) hrise
    hset
  have habove := hemitted.above k hlow hhigh
  rw [← Rat.cast_le (K := ℝ)] at habove
  linarith

theorem Accurate.mask_le
    (haccurate : Accurate coords station (ecefPositions coords positions times) err)
    (hlength : positions.length = times.length) {k : Nat} (hk : k < times.length)
    (hsome : (coords.elevation station (ecefAt coords positions times k)).isSome)
    (h : station.elevationMaskDeg + err ≤ station.elevationOf (ecefAt coords positions times k))
    : station.elevationMaskDeg
        ≤ (sanitize (elevationsAt coords positions times station)).getD k 0 := by
  obtain ⟨e, helevation⟩ := Option.isSome_iff_exists.mp hsome
  have hclose := haccurate.close _ (ecefAt_mem hlength hk) e helevation
  rw [getD_sanitize_elevationsAt hlength hk, helevation, Option.getD_some]
  have hle : (station.elevationMaskDeg : ℝ) ≤ e := by
    linarith [(abs_le.mp hclose).left]
  exact_mod_cast hle

theorem Accurate.exists_mem_extractPasses {cfg : Config} {positions' : List Position}
    (haccurate : Accurate coords station (ecefPositions coords positions times) err)
    (hlength : positions.length = times.length) (hincreasing : times.Pairwise (· < ·))
    (hkept : KeptSteps times) {i j : Nat} (hij : i < j) (hj : j < times.length)
    (hduration : cfg.minPassDuration ≤ PyFloat.totalSeconds (times.getD j 0 - times.getD i 0))
    (habove : ∀ k, i ≤ k → k ≤ j → (coords.elevation station (ecefAt coords positions times k)).isSome
      ∧ station.elevationMaskDeg + err ≤ station.elevationOf (ecefAt coords positions times k))
    : ∃ p ∈ extractPasses .python cfg (elevationsAt coords positions times station)
          (times.map seconds) positions' station.elevationMaskDeg,
        p.riseTime ≤ seconds (times.getD i 0) ∧ seconds (times.getD j 0) ≤ p.setTime := by
  have hseconds := increasing_map_seconds hincreasing
  have hkeeps := keepsSteps_map_seconds hincreasing hkept
  have hsamples : (elevationsAt coords positions times station).length = (times.map seconds).length := by
    rw [length_elevationsAt hlength, List.length_map]
  have hsanitized : (sanitize (elevationsAt coords positions times station)).length
      = (times.map seconds).length := by
    rw [sanitize, List.length_map, hsamples]
  have hcover : ∀ k, i ≤ k → k ≤ j → station.elevationMaskDeg
      ≤ (sanitize (elevationsAt coords positions times station)).getD k 0 := by
    intro k hk hkj
    obtain ⟨hsome, hhigh⟩ := habove k hk hkj
    apply haccurate.mask_le hlength (by omega) hsome hhigh
  have hj' : j < (times.map seconds).length := by rwa [List.length_map]
  obtain ⟨riseI, setI, hrun, hrise, hset⟩ := exists_isRun (le_of_lt hij) (hsanitized ▸ hj') hcover
  have hle := hrun.le
  have hrises := le_trans (riseAt_bounds hseconds hkeeps hsanitized hrun).right
    (getD_le_getD hseconds hrise (by omega))
  have hsets := le_trans (getD_le_getD hseconds (show j ≤ setI - 1 by omega) (by omega))
    (setAt_bounds hseconds hkeeps hsanitized hrun).left
  rw [getD_map_seconds (by omega)] at hrises hsets
  have hstep := getD_lt_getD hseconds hij hj'
  rw [getD_map_seconds (by omega), getD_map_seconds hj] at hstep
  have hemitted : EmittedRun .python cfg.minPassDuration (times.map seconds)
      (sanitize (elevationsAt coords positions times station)) station.elevationMaskDeg riseI setI := by
    constructor
    case toIsRun => exact hrun
    case ordered => linarith
    case longEnough =>
      apply le_trans hduration
      apply PyFloat.fl_mono
      change seconds _ ≤ _
      rw [← seconds_sub]
      linarith
  obtain ⟨p, hp, hpass⟩ := exists_pass_of_run hsamples hemitted
  refine ⟨p, hp, ?_, ?_⟩
  . rw [hpass.riseTime]
    exact hrises
  . rw [hpass.setTime]
    exact hsets

/--
At every sample strictly between rise and set of a pass, the ellipsoid is not between the station and
the satellite; and while the satellite is higher than mask and error for the least duration of a pass,
it is in a pass.
-/
theorem detectPasses_inSight (settings : Settings) (coords : CoordConverter) (positions : List Position)
    (times : List Int) (station : Station) {err : ℝ} (hlength : positions.length = times.length)
    (hincreasing : times.Pairwise (· < ·)) (hkept : KeptSteps times)
    (haccurate : Accurate coords station (ecefPositions coords positions times) err)
    (hmask : err < station.elevationMaskDeg)
    : ∃ passes,
        detectPasses coords positions times station settings = .ok passes
          ∧
        (∀ p ∈ passes, ∀ k < times.length, p.riseTime < seconds (times.getD k 0)
          → seconds (times.getD k 0) < p.setTime
          → Clear wgs84 station.point (ecefAt coords positions times k).point)
          ∧
        ∀ i j, i < j → j < times.length
          → settings.minPassDurationSeconds ≤ PyFloat.totalSeconds (times.getD j 0 - times.getD i 0)
          → (∀ k, i ≤ k → k ≤ j → (coords.elevation station (ecefAt coords positions times k)).isSome
            ∧ station.elevationMaskDeg + err
              ≤ station.elevationOf (ecefAt coords positions times k))
          → ∃ p ∈ passes, p.riseTime ≤ seconds (times.getD i 0)
            ∧ seconds (times.getD j 0) ≤ p.setTime := by
  refine ⟨_, detectPasses_eq hlength, ?_, ?_⟩
  . intro p hp k hk hrise hset
    apply haccurate.clear_of_mem_extractPasses hlength hincreasing hkept hmask hp hk hrise hset
  . intro i j hij hj hduration habove
    have hleast : (settings.config coords station).minPassDuration
        = settings.minPassDurationSeconds := Rat.mkRat_one _
    apply haccurate.exists_mem_extractPasses hlength hincreasing hkept hij hj _ habove
    rw [hleast]
    exact hduration

def overhead : Position where
  x := 6778137 / 1000
  y := 0
  z := 0

def overheadCoords : CoordConverter where
  temeToEcef p _ := p
  elevation _ _ := some 90
  azimuth _ _ := 0

theorem elevationOf_overhead : plainStation.elevationOf overhead = 90 := by
  have hstation : plainStation.point = stationToEcef Numpy.real 0 0 0 := by
    unfold Station.point plainStation
    rw [Rat.cast_zero]
  have hsat : overhead.point = ![kmPerMetre * semiMajorAxis + 400, 0, 0] := by
    unfold Position.point overhead kmPerMetre semiMajorAxis
    norm_num
  have hrange := range_overhead (show (0 : ℝ) ≤ 400 by norm_num)
  have hnear : tooNear ≤ Horizontal.range (overhead.point - plainStation.point) := by
    rw [hsat, hstation, hrange]
    exact eastern.rangeLe
  have hup : Vec3.z (ecefToEnu Numpy.real (overhead.point - plainStation.point)
      (Numpy.real.radians plainStation.latitude) (Numpy.real.radians plainStation.longitude)) = 400 := by
    have hzero : Numpy.real.radians ((0 : Rat) : ℝ) = 0 := by rw [Numpy.radians_eq, Rat.cast_zero, zero_mul]
    have hlat : Numpy.real.radians plainStation.latitude = 0 := hzero
    have hlon : Numpy.real.radians plainStation.longitude = 0 := hzero
    rw [ecefToEnu_up, hlat, hlon, hsat, hstation, stationToEcef_origin]
    simp only [Vec3.x_sub, Vec3.y_sub, Vec3.z_sub, Vec3.x_mk, Vec3.y_mk, Vec3.z_mk]
    simp [Numpy.real]
  unfold Station.elevationOf
  rw [computeElevationAzimuth_real _ _ hnear]
  dsimp only
  rw [Horizontal.elevation, hup, range_ecefToEnu, hsat, hstation, hrange, div_self (by norm_num),
    Real.arcsin_one, Numpy.degrees_half_pi]

theorem detectPasses_inSight_overhead
    : ∃ passes,
        detectPasses overheadCoords [overhead, overhead] [0, hour] plainStation hourly = .ok passes
          ∧
        (∀ p ∈ passes, ∀ k < [0, hour].length, p.riseTime < seconds ([0, hour].getD k 0)
          → seconds ([0, hour].getD k 0) < p.setTime
          → Clear wgs84 plainStation.point
              (ecefAt overheadCoords [overhead, overhead] [0, hour] k).point)
          ∧
        ∀ i j, i < j → j < [0, hour].length
          → hourly.minPassDurationSeconds ≤ PyFloat.totalSeconds ([0, hour].getD j 0 - [0, hour].getD i 0)
          → (∀ k, i ≤ k → k ≤ j
            → (overheadCoords.elevation plainStation
                (ecefAt overheadCoords [overhead, overhead] [0, hour] k)).isSome
              ∧ plainStation.elevationMaskDeg + (0 : ℝ)
                ≤ plainStation.elevationOf (ecefAt overheadCoords [overhead, overhead] [0, hour] k))
          → ∃ p ∈ passes, p.riseTime ≤ seconds ([0, hour].getD i 0)
            ∧ seconds ([0, hour].getD j 0) ≤ p.setTime := by
  apply detectPasses_inSight
  . rfl
  . decide
  . intro i hi
    obtain rfl : i = 0 := by
      simp only [List.length_cons, List.length_nil] at hi
      omega
    left
    decide
  . constructor
    case nonneg => apply le_refl
    case close =>
      intro p hp e he
      have hp : p = overhead := by simpa [ecefPositions, overheadCoords] using hp
      have he : e = 90 := by simpa [overheadCoords] using he.symm
      rw [hp, he, elevationOf_overhead]
      norm_num
  . unfold plainStation
    norm_num

end inSight

end PassDetector
end SdaSystem
