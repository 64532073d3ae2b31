import SdaSystem.Propagation.Impl.Engine
import SdaSystem.Propagation.Lemmas.Crossing

namespace SdaSystem
namespace PassDetector

theorem getD_map_seconds {times : List Int} {i : Nat} (hi : i < times.length)
    : (times.map seconds).getD i 0 = seconds (times.getD i 0) := by
  rw [List.getD_eq_getElem _ _ (by simpa using hi), List.getD_eq_getElem _ _ hi, List.getElem_map]

theorem increasing_map_seconds {times : List Int} (h : times.Pairwise (· < ·))
    : (times.map seconds).Pairwise (· < ·) := by
  rw [List.pairwise_map]
  apply h.imp
  intro a b hab
  apply seconds_lt_seconds_iff.mpr hab

theorem seconds_sub (a b : Int) : seconds a - seconds b = seconds (a - b) := by
  rw [seconds_eq, seconds_eq, seconds_eq, Int.cast_sub, sub_div]

/-- A duration in microseconds that is up to 272 years, or of whole seconds. -/
def IsKept (us : Int) : Prop :=
  us < 2 ^ 33 * 1000000 ∨ ∃ k : Int, |k| < 2 ^ 53 ∧ us = k * 1000000

def KeptSteps (times : List Int) : Prop :=
  ∀ i, i + 1 < times.length → IsKept (times.getD (i + 1) 0 - times.getD i 0)

theorem keepsSteps_map_seconds {times : List Int} (hincreasing : times.Pairwise (· < ·))
    (h : KeptSteps times) : Arith.python.KeepsSteps (times.map seconds) := by
  intro left hleft
  rw [List.length_map] at hleft
  have hlt : times.getD left 0 < times.getD (left + 1) 0 := by
    rw [List.getD_eq_getElem _ _ (by omega), List.getD_eq_getElem _ _ hleft]
    apply List.pairwise_iff_getElem.mp hincreasing
    omega
  rw [getD_map_seconds hleft, getD_map_seconds (by omega), seconds_sub]
  apply Arith.python_keeps (by omega) (h left hleft)

section detectPasses

variable {settings : Settings} {coords : CoordConverter} {positions : List Position}
  {times : List Int} {station : Station}

theorem length_elevationsAt (hlength : positions.length = times.length)
    : (elevationsAt coords positions times station).length = times.length := by
  simp [elevationsAt, ecefPositions, hlength]

theorem detectPasses_eq (hlength : positions.length = times.length)
    : detectPasses coords positions times station settings
        =
      .ok (extractPasses .python (settings.config coords station)
        (elevationsAt coords positions times station) (times.map seconds)
        (ecefPositions coords positions times) station.elevationMaskDeg) := by
  unfold detectPasses
  split
  . next hempty =>
    have : times = [] := List.eq_nil_of_length_eq_zero hempty
    rw [this]
    simp [elevationsAt, ecefPositions, extractPasses, sanitize, windows, TrueRuns.indicesOf,
      TrueRuns.diff, TrueRuns.indicesFrom]
  . have halt := station.altitudeNonneg
    simp [hlength, station.latitudeRange, station.longitudeRange, not_lt.mpr halt]

end detectPasses

section hole

variable (ar : Arith) (times elevations : List Rat) (mask : Rat)

/--
A failed step at `t`, with `k` successful ones before it, makes no hole in the run: it is not between
two samples of the run, and where it is next to an edge of the run the straight line across the edge
meets the mask on the other side of `t`.
-/
def HoleFree (riseI setI k : Nat) (t : Rat) : Prop :=
  ¬ (riseI < k ∧ k < setI)
    ∧ (k = riseI → 0 < riseI
      → ¬ IsFlat ar elevations (riseI - 1) ∧ t ≤ lineTime ar times elevations mask (riseI - 1))
    ∧ (k = setI → setI < times.length
      → ¬ IsFlat ar elevations (setI - 1) ∧ lineTime ar times elevations mask (setI - 1) ≤ t)

variable {ar times elevations mask} {riseI setI k : Nat} {t : Rat}
  (hincreasing : times.Pairwise (· < ·)) (hkeeps : ar.KeepsSteps times)
  (hlength : elevations.length = times.length) (h : IsRun elevations mask riseI setI)
  (hrank : ∀ i < times.length, (times.getD i 0 < t ↔ i < k) ∧ (t < times.getD i 0 ↔ k ≤ i))

include hincreasing hkeeps hlength h hrank

theorem riseAt_lt_iff
    : riseAt ar times elevations mask riseI < t
        ↔
      riseI < k ∨ (k = riseI ∧ 0 < riseI
        ∧ ¬ (¬ IsFlat ar elevations (riseI - 1)
          ∧ t ≤ lineTime ar times elevations mask (riseI - 1))) := by
  have hlt := h.lt
  have hle := h.le
  obtain ⟨hlower, hupper⟩ := riseAt_bounds hincreasing hkeeps hlength h
  rcases Nat.lt_trichotomy k riseI with hk | hk | hk
  . have hbefore := (hrank (riseI - 1) (by omega)).right.mpr (by omega)
    constructor
    . intro hafter
      linarith
    . rintro (hk' | ⟨hk', _⟩) <;> omega
  . cases riseI with
    | zero =>
      have hbefore := (hrank 0 (by omega)).right.mpr (by omega)
      constructor
      . intro hafter
        linarith
      . rintro (hk' | ⟨_, hpos, _⟩) <;> omega
    | succ left =>
      have hafter := (hrank left (by omega)).left.mpr (by omega)
      unfold riseAt
      rw [if_neg (Nat.succ_ne_zero left), Nat.add_one_sub_one]
      split
      . next hflat => exact iff_of_true hafter (.inr ⟨hk, Nat.succ_pos left, fun h => h.left hflat⟩)
      . next hflat => simp [hk, hflat]
  . have hafter := (hrank riseI (by omega)).left.mpr hk
    exact iff_of_true (by linarith) (.inl hk)

theorem lt_setAt_iff
    : t < setAt ar times elevations mask setI
        ↔
      k < setI ∨ (k = setI ∧ setI < times.length
        ∧ ¬ (¬ IsFlat ar elevations (setI - 1)
          ∧ lineTime ar times elevations mask (setI - 1) ≤ t)) := by
  have hlt := h.lt
  have hle := h.le
  obtain ⟨hlower, hupper⟩ := setAt_bounds hincreasing hkeeps hlength h
  by_cases hk : k < setI
  . have hbefore := (hrank (setI - 1) (by omega)).right.mpr (by omega)
    exact iff_of_true (by linarith) (.inl hk)
  by_cases hend : setI < times.length
  . have hset := hupper hend
    by_cases heq : k = setI
    . have hbefore := (hrank setI hend).right.mpr (by omega)
      unfold setAt
      rw [if_neg (by omega)]
      split
      . next hflat => exact iff_of_true hbefore (.inr ⟨heq, hend, fun h => h.left hflat⟩)
      . next hflat => simp [heq, hend, hflat]
    . have hafter := (hrank setI hend).left.mpr (by omega)
      constructor
      . intro hbefore
        linarith
      . rintro (hk' | ⟨hk', _⟩) <;> omega
  . have hafter := (hrank (times.length - 1) (by omega)).left.mpr (by omega)
    unfold setAt
    rw [if_pos (by omega)]
    constructor
    . intro hbefore
      linarith
    . rintro (hk' | ⟨_, hend', _⟩)
      . omega
      . exact absurd hend' hend

theorem not_mem_run_iff_holeFree
    : ¬ (riseAt ar times elevations mask riseI < t ∧ t < setAt ar times elevations mask setI)
        ↔
      HoleFree ar times elevations mask riseI setI k t := by
  have hlt := h.lt
  rw [riseAt_lt_iff hincreasing hkeeps hlength h hrank,
    lt_setAt_iff hincreasing hkeeps hlength h hrank]
  unfold HoleFree
  constructor
  . intro hout
    refine ⟨fun hmem => hout ⟨.inl hmem.left, .inl hmem.right⟩, ?_, ?_⟩
    . intro hk hpos
      by_contra hrise
      exact hout ⟨.inr ⟨hk, hpos, hrise⟩, .inl (hk ▸ hlt)⟩
    . intro hk hend
      by_contra hset
      exact hout ⟨.inl (hk ▸ hlt), .inr ⟨hk, hend, hset⟩⟩
  . rintro ⟨hinside, hrise, hset⟩ ⟨hrise' | ⟨hk, hpos, hrise'⟩, hset'⟩
    . rcases hset' with hset' | ⟨hk, hend, hset'⟩
      . exact hinside ⟨hrise', hset'⟩
      . exact hset' (hset hk hend)
    . exact hrise' (hrise hk hpos)

end hole

end PassDetector

namespace PropagationResult

open PassDetector

variable (result : PropagationResult)

theorem length_validPositions : result.validPositions.length = result.validTimes.length := by
  unfold validPositions validTimes
  rw [length_compress (result.lengthPositions.trans result.lengthMask),
    length_compress result.lengthMask]

theorem validTimes_increasing : result.validTimes.Pairwise (· < ·) :=
  result.increasing.sublist (compress_sublist _ _)

theorem validTimes_keptSteps : KeptSteps result.validTimes := by
  intro i hi
  have hmem : ∀ k, k < result.validTimes.length → result.validTimes.getD k 0 ∈ result.times := by
    intro k hk
    rw [List.getD_eq_getElem _ _ hk]
    apply (compress_sublist _ _).subset
    apply List.getElem_mem
  right
  apply result.wholeSeconds _ (hmem (i + 1) hi) _ (hmem i (by omega))

def FailedAt (j : Nat) (t : Int) : Prop :=
  result.times[j]? = some t ∧ result.validMask[j]? = some false

variable {result}

theorem FailedAt.rank {j : Nat} {t : Int} (h : result.FailedAt j t) {i : Nat}
    (hi : i < (result.validTimes.map seconds).length)
    : ((result.validTimes.map seconds).getD i 0 < seconds t ↔ i < rankBefore result.validMask j)
        ∧
      (seconds t < (result.validTimes.map seconds).getD i 0 ↔ rankBefore result.validMask j ≤ i) := by
  rw [List.length_map] at hi
  rw [getD_map_seconds hi, seconds_lt_seconds_iff, seconds_lt_seconds_iff]
  apply getD_compress_lt_iff result.increasing result.lengthMask h.left h.right hi

/--
No pass spans a failed step without a flag if and only if no run that is emitted, with finite samples
only, has a hole at a failed step.
-/
theorem detectPasses_dataGap_iff (settings : Settings) (coords : CoordConverter)
    (result : PropagationResult) (station : Station)
    : ∃ passes,
        detectPasses coords result.validPositions result.validTimes station settings = .ok passes
          ∧
        ((∀ p ∈ passes, ∀ j t, result.FailedAt j t → p.riseTime < seconds t → seconds t < p.setTime
          → p.hasDataGap)
          ↔
        let times := result.validTimes.map seconds
        let samples := elevationsAt coords result.validPositions result.validTimes station
        let elevations := sanitize samples
        let mask := station.elevationMaskDeg
        ∀ riseI setI,
          EmittedRun .python (settings.config coords station).minPassDuration times elevations mask
              riseI setI
            → (∀ e ∈ (samples.take setI).drop riseI, e.isSome)
            → ∀ j t, result.FailedAt j t
            → HoleFree .python times elevations mask riseI setI (rankBefore result.validMask j)
                (seconds t))
    := by
  refine ⟨_, detectPasses_eq result.length_validPositions, ?_⟩
  dsimp only
  have hincreasing := increasing_map_seconds result.validTimes_increasing
  have hkeeps := keepsSteps_map_seconds result.validTimes_increasing result.validTimes_keptSteps
  have hlength : (elevationsAt coords result.validPositions result.validTimes station).length
      = (result.validTimes.map seconds).length := by
    simp [length_elevationsAt result.length_validPositions]
  have hlength' : (sanitize (elevationsAt coords result.validPositions result.validTimes station)).length
      = (result.validTimes.map seconds).length := by
    simp [sanitize, hlength]
  constructor
  . intro h riseI setI hemitted hfinite j t hfailed
    rw [← not_mem_run_iff_holeFree hincreasing hkeeps hlength' hemitted.toIsRun
      fun i => hfailed.rank]
    rintro ⟨hrise, hset⟩
    obtain ⟨p, hp, hpass⟩ := exists_pass_of_run hlength hemitted
    rw [← hpass.riseTime] at hrise
    rw [← hpass.setTime] at hset
    have hgap := h p hp j t hfailed hrise hset
    rw [hpass.hasDataGap, List.any_eq_true] at hgap
    obtain ⟨e, he, hnone⟩ := hgap
    have := hfinite e he
    simp [Option.isNone_iff_eq_none.mp hnone] at this
  . intro h p hp j t hfailed hrise hset
    obtain ⟨riseI, setI, hemitted, hpass⟩ := exists_run_of_mem hlength hp
    by_contra hgap
    rw [hpass.hasDataGap, Bool.not_eq_true, List.any_eq_false] at hgap
    rw [hpass.riseTime] at hrise
    rw [hpass.setTime] at hset
    have hfinite : ∀ e ∈ ((elevationsAt coords result.validPositions result.validTimes station).take
        setI).drop riseI, e.isSome := by
      intro e he
      rw [Option.isSome_iff_ne_none]
      simpa using hgap e he
    have hhole := h riseI setI hemitted hfinite j t hfailed
    rw [← not_mem_run_iff_holeFree hincreasing hkeeps hlength' hemitted.toIsRun
      fun i => hfailed.rank]
      at hhole
    exact hhole ⟨hrise, hset⟩

def hourly : Settings where
  propagationDays := 1
  propagationStepSeconds := 3600
  minPassDurationSeconds := 5
  stepPos := by decide
  daysLe := by decide

def plainCoords : CoordConverter where
  temeToEcef p _ := p
  elevation _ p := some p.x
  azimuth _ _ := 0

def plainStation : Station where
  stationId := "GS1"
  latitude := 0
  longitude := 0
  altitudeM := 0
  elevationMaskDeg := 10
  latitudeRange := by norm_num
  longitudeRange := by norm_num
  altitudeNonneg := by norm_num

def hour : Int := 3600000000

def highFromTwoToEight (failed : List Int) : SGP4Engine.Satrec where
  epochyr := 24
  epochdays := 1
  step t := {
    position := some { x := if 2 * hour ≤ t ∧ t ≤ 8 * hour then 40 else 0, y := 0, z := 0 }
    errorCode := if t ∈ failed then 1 else 0
  }

theorem pass_spans_failed_step
    : ¬ ∀ (settings : Settings) (coords : CoordConverter) (result : PropagationResult)
        (station : Station) (passes : List PassRecord),
        result.isUsable
          → detectPasses coords result.validPositions result.validTimes station settings = .ok passes
          → ∀ p ∈ passes, ∀ j t, result.FailedAt j t → p.riseTime < seconds t
          → seconds t < p.setTime → p.hasDataGap := by
  intro h
  let result := SGP4Engine.propagate hourly (highFromTwoToEight [5 * hour]) 25544 0
  have husable : result.isUsable := by decide +kernel
  have hfailed : result.FailedAt 5 (5 * hour) := by
    constructor <;> decide +kernel
  have hspan : ∃ p ∈ extractPasses .python (hourly.config plainCoords plainStation)
        (elevationsAt plainCoords result.validPositions result.validTimes plainStation)
        (result.validTimes.map seconds)
        (ecefPositions plainCoords result.validPositions result.validTimes) 10,
      p.riseTime < seconds (5 * hour) ∧ seconds (5 * hour) < p.setTime ∧ p.hasDataGap = false := by
    decide +kernel
  obtain ⟨p, hp, hrise, hset, hgap⟩ := hspan
  have := h hourly plainCoords result plainStation _ husable
    (detectPasses_eq result.length_validPositions) p hp 5 (5 * hour) hfailed hrise hset
  rw [hgap] at this
  cases this

end PropagationResult
end SdaSystem
