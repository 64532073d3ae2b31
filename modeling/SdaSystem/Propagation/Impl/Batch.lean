import SdaSystem.Library.PyNumber.Str
import SdaSystem.Propagation.Impl.Engine
import SdaSystem.Propagation.Impl.SatCache
import SdaSystem.Propagation.Impl.TleFormat

/-!
This module contains the entry points of the SGP4 engine: one propagation through the cache of satellite
objects, the generator that makes one after the other, and all the calls of a process. What Skyfield and
SGP4 make of two lines is an argument.
-/

namespace SdaSystem
namespace SGP4Engine

open PassDetector (Settings maxDays)
open TLEFetcher (strip)

structure Skyfield where
  -- `EarthSatellite(line1, line2, name, ts)` raises
  raises : List Char → List Char → Bool
  -- The object of two lines, if its steps from an instant on can be had without an exception.
  satrec : List Char → List Char → Int → Option Satrec

theorem getD_none_le : (none : Option Nat).getD 0 ≤ maxDays := by
  decide

structure PropagateArgs where
  line1 : List Char
  line2 : List Char
  noradId : Int
  startTime : Int
  name : List Char := []
  days : Option Nat := none
  -- A longer window is beyond the dates that there are.
  daysLe : days.getD 0 ≤ maxDays := by exact getD_none_le
  deriving DecidableEq

inductive PropagateError where
  | format (noradId : Int) (error : FormatError)
  | skyfield
  deriving DecidableEq

theorem length_of_validateTleFormat {line1 line2 : List Char} (h : validateTleFormat line1 line2 = none)
    : (strip line1).length = 69 ∧ (strip line2).length = 69 := by
  unfold validateTleFormat at h
  dsimp only at h
  split at h
  . cases h
  . next h1 =>
    split at h
    . cases h
    . next h2 => exact ⟨not_not.mp h1, not_not.mp h2⟩

section

variable (sha256 : List Char → String) (skyfield : Skyfield) (settings : Settings)

def PropagateArgs.request (args : PropagateArgs)
    (h : validateTleFormat args.line1 args.line2 = none) : SatRequest where
  line1 := args.line1
  line2 := args.line2
  name := if args.name = [] then PyNumber.str args.noradId else args.name
  length1 := (length_of_validateTleFormat h).1
  length2 := (length_of_validateTleFormat h).2

theorem PropagateArgs.days_le (args : PropagateArgs)
    : args.days.getD settings.propagationDays ≤ maxDays := by
  have hle := args.daysLe
  cases hdays : args.days with
  | none => apply settings.daysLe
  | some days =>
    rw [hdays] at hle
    apply hle

def PropagateArgs.window (args : PropagateArgs) : Settings where
  propagationDays := args.days.getD settings.propagationDays
  propagationStepSeconds := settings.propagationStepSeconds
  minPassDurationSeconds := settings.minPassDurationSeconds
  stepPos := settings.stepPos
  daysLe := args.days_le settings

def propagateObject (args : PropagateArgs) (sat : EarthSatellite)
    : Except PropagateError PropagationResult :=
  match skyfield.satrec sat.line1 sat.line2 args.startTime with
  | none => .error .skyfield
  | some satrec => .ok (propagate (args.window settings) satrec args.noradId args.startTime)

/-- `SGP4Engine.propagate`, with the cache after it. -/
def propagateCached (cache : SatCache) (args : PropagateArgs)
    : SatCache × Except PropagateError PropagationResult :=
  match h : validateTleFormat args.line1 args.line2 with
  | some error => (cache, .error (.format args.noradId error))
  | none =>
    let (cache, sat) :=
      getOrCreateSatellite sha256 cache (args.request h) (skyfield.raises args.line1 args.line2)
    match sat with
    | none => (cache, .error .skyfield)
    | some sat => (cache, propagateObject skyfield settings args sat)

/-- What the generator yields for one satellite; it catches whatever `propagate` raises. -/
def yielded (noradId : Int) (result : Except PropagateError PropagationResult)
    : Int × Option PropagationResult :=
  match result with
  | .ok result => (noradId, some result)
  | .error _ => (noradId, none)

def batchPropagate (cache : SatCache) (tles : List (Int × List Char × List Char)) (startTime : Int)
    (names : Int → Option (List Char)) : SatCache × List (Int × Option PropagationResult) :=
  match tles with
  | [] => (cache, [])
  | (noradId, line1, line2) :: tles =>
    let name := (names noradId).getD []
    let (cache, result) :=
      propagateCached sha256 skyfield settings cache { line1, line2, noradId, startTime, name }
    let (cache, results) := batchPropagate cache tles startTime names
    (cache, yielded noradId result :: results)

inductive EngineCall where
  | propagate (args : PropagateArgs)
  | clearCache

def serve (cache : SatCache) (calls : List EngineCall)
    : SatCache × List (Except PropagateError PropagationResult) :=
  match calls with
  | [] => (cache, [])
  | .propagate args :: calls =>
    let (cache, result) := propagateCached sha256 skyfield settings cache args
    let (cache, results) := serve cache calls
    (cache, result :: results)
  | .clearCache :: calls => serve (clearCache cache).1 calls

end

end SGP4Engine
end SdaSystem
