import SdaSystem.Ingestion.Impl.Validator
import SdaSystem.Library.Compress
import SdaSystem.Propagation.Impl.PassDetector

/-!
This module contains the result of a propagation: the time grid, which of its steps succeeded, and
what of them the pass detector is given. What SGP4 computes for an instant is an argument.
-/

namespace SdaSystem

open PassDetector

/-- One row for each step of the grid; `times` are instants in increasing order, whole seconds apart. -/
structure PropagationResult where
  noradId : Int
  positions : List Position
  times : List Int
  validMask : List Bool
  errorCodes : List Int
  tleAgeDays : Rat
  decayed : Bool
  lengthPositions : positions.length = times.length
  lengthMask : times.length = validMask.length
  lengthCodes : times.length = errorCodes.length
  increasing : times.Pairwise (· < ·)
  wholeSeconds : ∀ t ∈ times, ∀ u ∈ times, ∃ k : Int, |k| < 2 ^ 53 ∧ t - u = k * 1000000

namespace PropagationResult

variable (result : PropagationResult)

def validPositions : List Position :=
  compress result.positions result.validMask

def validTimes : List Int :=
  compress result.times result.validMask

def validFraction : Rat :=
  let n := result.validMask.length
  if n = 0 then 0 else mkRat (result.validMask.count true) n

def isUsable (minValidFraction : Rat := 9 / 10) : Bool :=
  ¬ result.decayed ∧ result.validFraction ≥ minValidFraction

end PropagationResult

namespace SGP4Engine

/-- What SGP4 gives for one instant; `none` is a position with a component that is not finite. -/
structure Step where
  position : Option Position
  errorCode : Int

/-- The satellite object: the epoch as it is in the element set, and what SGP4 gives. -/
structure Satrec where
  epochyr : Int
  epochdays : Rat
  step : Int → Step

def tleEpoch (sat : Satrec) : Int :=
  let year := if sat.epochyr < 57 then 2000 + sat.epochyr else 1900 + sat.epochyr
  Validator.newYear year * Validator.usPerDay
    + Validator.timedeltaDays (PyFloat.fl (sat.epochdays - 1))

def timeGrid (settings : Settings) (startTime : Int) : List Int :=
  let nSteps := settings.propagationDays * 86400 / settings.propagationStepSeconds
  (List.range (nSteps + 1)).map fun (i : Nat) =>
    startTime + i * settings.propagationStepSeconds * 1000000

theorem timeGrid_increasing (settings : Settings) (startTime : Int)
    : (timeGrid settings startTime).Pairwise (· < ·) := by
  unfold timeGrid
  dsimp only
  rw [List.pairwise_map]
  apply List.pairwise_lt_range.imp
  intro i j hij
  have hstep := settings.stepPos
  have : i * settings.propagationStepSeconds < j * settings.propagationStepSeconds :=
    Nat.mul_lt_mul_of_pos_right hij hstep
  omega

theorem timeGrid_wholeSeconds (settings : Settings) (startTime : Int)
    : ∀ t ∈ timeGrid settings startTime, ∀ u ∈ timeGrid settings startTime,
        ∃ k : Int, |k| < 2 ^ 53 ∧ t - u = k * 1000000 := by
  have hdays : settings.propagationDays ≤ 3652058 := settings.daysLe
  unfold timeGrid
  dsimp only
  simp only [List.mem_map, List.mem_range, forall_exists_index, and_imp, forall_apply_eq_imp_iff₂]
  intro i hi j hj
  have hbound : ∀ n : Nat, n < settings.propagationDays * 86400 / settings.propagationStepSeconds + 1
      → n * settings.propagationStepSeconds < 2 ^ 53 := by
    intro n hn
    have := Nat.div_mul_le_self (settings.propagationDays * 86400) settings.propagationStepSeconds
    have := Nat.mul_le_mul_right settings.propagationStepSeconds (Nat.lt_succ_iff.mp hn)
    omega
  refine ⟨i * settings.propagationStepSeconds - j * settings.propagationStepSeconds, ?_, by ring⟩
  have := hbound i hi
  have := hbound j hj
  rw [abs_lt]
  omega

/-- The propagation of one satellite. Rows that are not valid are filled with a value nobody reads. -/
def propagate (settings : Settings) (sat : Satrec) (noradId startTime : Int) : PropagationResult where
  noradId
  positions := (timeGrid settings startTime).map fun t => (sat.step t).position.getD default
  times := timeGrid settings startTime
  validMask := (timeGrid settings startTime).map fun t =>
    (sat.step t).position.isSome && (sat.step t).errorCode = 0
  errorCodes := (timeGrid settings startTime).map fun t => (sat.step t).errorCode
  tleAgeDays := PyFloat.fl (PyFloat.totalSeconds (startTime - tleEpoch sat) / 86400)
  decayed := (timeGrid settings startTime).any fun t => (sat.step t).errorCode = 6
  lengthPositions := by simp
  lengthMask := by simp
  lengthCodes := by simp
  increasing := timeGrid_increasing settings startTime
  wholeSeconds := timeGrid_wholeSeconds settings startTime

end SGP4Engine

end SdaSystem
