import SdaSystem.Library.CpSat
import SdaSystem.Library.Groups
import SdaSystem.Library.PyFloat
import SdaSystem.Scheduling.Impl.Greedy

/-!
This module contains the Stage 2 scheduler: the query for its candidates, the CP-SAT model that it
poses and the extraction of the result.
-/

open CpSat

namespace SdaSystem
namespace ORToolsOptimizer

inductive Var where
  | pass (index : Nat)
  | sat (noradId : Int)
  deriving DecidableEq, Repr

/-- `none` is the `ValueError` for an instant before the epoch. -/
def toUtcSeconds (dt epoch : Int) : Option Int :=
  let deltaSec := PyFloat.trunc (PyFloat.totalSeconds (dt - epoch))
  if deltaSec < 0 then none else some deltaSec

def fitsInAnySlot (rise set : Int) (sortedSlots : List (Int × Int)) : Bool :=
  let pos : Int := Bisect.right (sortedSlots.map (·.1)) rise - 1
  if pos < 0 then
    false
  else
    match sortedSlots[pos.toNat]? with
    | some (_, slotEnd) => set ≤ slotEnd
    | none => false

def benefitScale : Rat := 100

def scaledBenefit (p : SatellitePass) : Int :=
  PyFloat.trunc (PyFloat.fl (PyFloat.fl (p.maxElevation * p.durationSeconds) * benefitScale))

structure ValidPass where
  index : Nat
  pass : SatellitePass
  start : Int
  stop : Int
  benefit : Int
  deriving DecidableEq, Repr

namespace ValidPass

def duration (v : ValidPass) : Int :=
  v.stop - v.start

def var (v : ValidPass) : Var :=
  .pass v.index

def interval (v : ValidPass) : OptionalInterval Var where
  start := v.start
  duration := v.duration
  stop := v.stop
  presence := v.var

end ValidPass

def normalize (epoch : Int) (candidate : SatellitePass × Nat) : Option ValidPass := do
  let p := candidate.1
  let s ← toUtcSeconds p.riseTime epoch
  let e ← toUtcSeconds p.setTime epoch
  if e - s ≤ 0 then
    none
  else
    return {
      index := candidate.2
      pass := p
      start := s
      stop := e
      benefit := scaledBenefit p
    }

def validPasses (candidates : List SatellitePass) (epoch : Int) : List ValidPass :=
  candidates.zipIdx.filterMap (normalize epoch)

section model

variable (valid : List ValidPass)

def stationConstraints : List (Constraint Var) :=
  (groupKeys (·.pass.stationId) valid).flatMap fun sid =>
    let passes := group (·.pass.stationId) valid sid
    if 1 < passes.length then [.noOverlap (passes.map (·.interval))] else []

def satVar (noradId : Int) : Var :=
  match group (·.pass.noradId) valid noradId with
  -- A single pass needs no further variable.
  | [v] => v.var
  | _ => .sat noradId

def satConstraints : List (Constraint Var) :=
  (groupKeys (·.pass.noradId) valid).flatMap fun noradId =>
    let literals := (group (·.pass.noradId) valid noradId).map (·.var)
    if literals.length = 1 then
      []
    else
      [.atMostOne literals, .maxEquality (.sat noradId) literals]

def satWeight : Int :=
  (valid.map (·.benefit)).max?.getD 1 + 1

def buildModel : CpModel Var where
  constraints := valid.map (fun v => .interval v.interval) ++ stationConstraints valid
    ++ satConstraints valid
  objective := (groupKeys (·.pass.noradId) valid).map (fun n => (satVar valid n, satWeight valid))
    ++ valid.map (fun v => (v.var, v.benefit))

end model

def extract (valid : List ValidPass) (a : Assignment Var) (alreadyScheduled : Finset Int)
    : List SatellitePass :=
  go ∅ valid
where
  go (committedNorads : Finset Int) (valid : List ValidPass) : List SatellitePass :=
    match valid with
    | [] => []
    | v :: rest =>
      if ¬ a v.var then
        go committedNorads rest
      else if v.pass.noradId ∈ alreadyScheduled then
        go committedNorads rest
      else if v.pass.noradId ∈ committedNorads then
        go committedNorads rest
      else
        v.pass :: go (insert v.pass.noradId committedNorads) rest

variable (solver : CpModel Var → Option (Assignment Var))

/-- `solver` gives the assignment if the status is `OPTIMAL` or `FEASIBLE`, and `none` otherwise. -/
def solve (candidates : List SatellitePass) (epoch : Int) (alreadyScheduled : Finset Int)
    : List SatellitePass :=
  match validPasses candidates epoch with
  | [] => []
  | valid =>
    match solver (buildModel valid) with
    | some a => extract valid a alreadyScheduled
    | none => []

def getCandidatePasses (table : PassTable) (scheduledSatellites : Finset Int)
    (startTime endTime : Int) (freeSlots : List (String × List (Int × Int))) : List SatellitePass :=
  if freeSlots = [] then
    []
  else
    let allPasses := table.rows.filter fun p =>
      ¬ p.isScheduled ∧ startTime ≤ p.riseTime ∧ p.setTime ≤ endTime
        ∧ p.noradId ∉ scheduledSatellites
    let allPasses := sortedBy (·.stationId) (sortedBy (·.riseTime) allPasses)
    let slotsOf (stationId : String) := sortedBy (·.1) ((freeSlots.lookup stationId).getD [])
    allPasses.filter fun p => fitsInAnySlot p.riseTime p.setTime (slotsOf p.stationId)

def optimizeRemaining (table : PassTable) (scheduledSatellites : Finset Int)
    (startTime endTime : Int) (freeSlots : List (String × List (Int × Int)))
    : PassTable × List SatellitePass :=
  let candidates := getCandidatePasses table scheduledSatellites startTime endTime freeSlots
  let newlyScheduled := solve solver candidates startTime scheduledSatellites
  (table.markScheduled (newlyScheduled.map (·.id)) .ortools, newlyScheduled)

end ORToolsOptimizer
end SdaSystem
