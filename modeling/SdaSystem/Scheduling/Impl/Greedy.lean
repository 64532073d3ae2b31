import Mathlib.Data.Finset.Basic
import Mathlib.Data.Finset.Union
import Mathlib.Data.Prod.Lex
import Mathlib.Data.String.Basic
import SdaSystem.Db.Models
import SdaSystem.Library.Bisect
import SdaSystem.Library.SortedBy

/-!
This module contains the Stage 1 scheduler: the weighted selection among the candidates of one
station, the guard that checks its result, and the two wrappers that read and write the tables. Where
a result depends on the rounding of floats, `fl` is what an operation makes of its exact result.
-/

namespace SdaSystem

def benefit (p : SatellitePass) : Rat :=
  p.maxElevation * p.durationSeconds

namespace GreedyScheduler

section

variable (fl : Rat → Rat)

namespace scheduleWeighted

def prev (sortedPasses : List SatellitePass) (i : Nat) : Int :=
  let setTimes := sortedPasses.map (·.setTime)
  match sortedPasses[i]? with
  | some p => (Bisect.right setTimes p.riseTime : Int) - 1
  | none => -1

def forward (sortedPasses : List SatellitePass) (dp : List Rat) (i : Nat) : List Rat :=
  let benefits := sortedPasses.map fun p => fl (benefit p)
  let included := fl (benefits.getD i 0 + dp.getD (prev sortedPasses i + 1).toNat 0)
  let excluded := dp.getD i 0
  dp.set (i + 1) (max included excluded)

def dp (sortedPasses : List SatellitePass) : List Rat :=
  let n := sortedPasses.length
  (List.range n).foldl (forward fl sortedPasses) (List.replicate (n + 1) 0)

/--
The backward loop. It depends on `i` alone, so a run that ends passes every `i` at most once; `none`
is a run that does not end within `fuel` rounds.
-/
def reconstruct (sortedPasses : List SatellitePass) (dp : List Rat) (fuel i : Nat)
    : Option (List SatellitePass) :=
  if i = 0 then
    some []
  else
    match fuel with
    | 0 => none
    | fuel + 1 =>
      -- The table grew, so pass `i - 1` was included.
      if dp.getD i 0 ≠ dp.getD (i - 1) 0 then do
        let p ← sortedPasses[i - 1]?
        let rest ← reconstruct sortedPasses dp fuel (prev sortedPasses (i - 1) + 1).toNat
        return p :: rest
      else
        reconstruct sortedPasses dp fuel (i - 1)

end scheduleWeighted

/-- Weighted-interval scheduling; `none` stands for a call that does not return. -/
def scheduleWeighted (passes : List SatellitePass) : Option (List SatellitePass) :=
  let sortedPasses := sortedBy (·.setTime) passes
  let n := sortedPasses.length
  scheduleWeighted.reconstruct sortedPasses (scheduleWeighted.dp fl sortedPasses) n n

end

-- `_EPOCH_MIN`, which is 1970-01-01T00:00Z.
def epochMin : Int := 0

def scheduleEdf (passes : List SatellitePass) : List SatellitePass :=
  go epochMin (sortedBy (·.setTime) passes)
where
  go (lastEnd : Int) (sortedPasses : List SatellitePass) : List SatellitePass :=
    match sortedPasses with
    | [] => []
    | p :: rest =>
      if p.riseTime ≥ lastEnd then
        p :: go p.setTime rest
      else
        go lastEnd rest

def hasOverlap (rise set : Int) (sortedIntervals : List (Int × Int)) : Bool :=
  let pos := Bisect.left (sortedIntervals.map toLex) (toLex (rise, set))
  let prev := if 0 < pos then sortedIntervals[pos - 1]? else none
  let next := sortedIntervals[pos]?
  (prev.any fun prev => prev.1 < set ∧ rise < prev.2)
    || (next.any fun next => rise < next.2 ∧ next.1 < set)

def scheduleHeap (passes : List SatellitePass) : List SatellitePass :=
  go [] (sortedBy (fun p => -benefit p) passes)
where
  -- The heap is the list of its entries in pop order: by benefit, then by their place in the input.
  go (committed : List (Int × Int)) (heap : List SatellitePass) : List SatellitePass :=
    match heap with
    | [] => []
    | p :: rest =>
      if hasOverlap p.riseTime p.setTime committed then
        go committed rest
      else
        p :: go (Bisect.insort toLex committed (p.riseTime, p.setTime)) rest

/-- Push onto the heap of active passes, which is kept as the list of its entries in pop order. -/
def heappush (active : List SatellitePass) (p : SatellitePass) : List SatellitePass :=
  active.orderedInsert (fun a b => a.setTime < b.setTime) p

def detectConflicts (passes : List SatellitePass) : List (SatellitePass × SatellitePass) :=
  go [] (sortedBy (·.riseTime) passes)
where
  go (active : List SatellitePass) (sortedPasses : List SatellitePass)
      : List (SatellitePass × SatellitePass) :=
    match sortedPasses with
    | [] => []
    | p :: rest =>
      let active := active.dropWhile fun a => a.setTime ≤ p.riseTime
      active.map (fun a => (a, p)) ++ go (heappush active p) rest

def dropConflicts (selected : List SatellitePass) : List SatellitePass :=
  let conflicts := detectConflicts selected
  let badIds := conflicts.flatMap fun pair => [pair.1.id, pair.2.id]
  selected.filter fun p => p.id ∉ badIds

def candidates (table : PassTable) (startTime endTime : Int) (stationId : String)
    (globallyScheduledSats : Finset Int) : List SatellitePass :=
  table.rows.filter fun p =>
    p.stationId = stationId ∧ startTime ≤ p.riseTime ∧ p.setTime ≤ endTime ∧ ¬ p.isScheduled
      ∧ p.noradId ∉ globallyScheduledSats

structure Progress where
  allScheduled : List SatellitePass := []
  globallyScheduledSats : Finset Int := ∅

def activeStations (stations : StationTable) : List String :=
  sortedBy id ((stations.rows.filter (·.isActive)).map (·.stationId))

section

variable (fl : Rat → Rat)

def scheduleStation (table : PassTable) (startTime endTime : Int) (acc : Progress)
    (stationId : String) : Option Progress := do
  let cands := candidates table startTime endTime stationId acc.globallyScheduledSats
  let selected ← scheduleWeighted fl cands
  let selected := dropConflicts selected
  return {
    allScheduled := acc.allScheduled ++ selected
    globallyScheduledSats := acc.globallyScheduledSats ∪ (selected.map (·.noradId)).toFinset
  }

/--
Schedule all active stations and commit. The result is the table after the commit, the selected
rows as they are then, and the satellites they belong to.
-/
def scheduleAllStations (stations : StationTable) (table : PassTable)
    (startTime endTime : Int) : Option (PassTable × List SatellitePass × Finset Int) := do
  let res ← (activeStations stations).foldlM (scheduleStation fl table startTime endTime) {}
  return (
    table.markScheduled (res.allScheduled.map (·.id)) .greedy,
    res.allScheduled.map (·.schedule .greedy),
    res.globallyScheduledSats
  )

end

def mergeIntervals (intervals : List (Int × Int)) : List (Int × Int) :=
  match sortedBy (·.1) intervals with
  | [] => []
  | iv :: rest => go iv rest
where
  -- `last` is the entry at the end of the merged list, the only one that can still grow.
  go (last : Int × Int) (rest : List (Int × Int)) : List (Int × Int) :=
    match rest with
    | [] => [last]
    | iv :: rest =>
      if iv.1 ≤ last.2 then
        go (last.1, max last.2 iv.2) rest
      else
        last :: go iv rest

/--
Unoccupied time windows at a station. `run_ortools` gets them as ISO texts, which it parses back
into the instants that are listed here.
-/
def getFreeSlots (table : PassTable) (stationId : String) (startTime endTime : Int)
    : List (Int × Int) :=
  let scheduled := table.rows.filter fun p =>
    p.stationId = stationId ∧ p.isScheduled ∧ startTime ≤ p.riseTime ∧ p.setTime ≤ endTime
  let occupied := mergeIntervals ((sortedBy (·.riseTime) scheduled).map fun p => (p.riseTime, p.setTime))
  go startTime occupied
where
  go (cursor : Int) (occupied : List (Int × Int)) : List (Int × Int) :=
    match occupied with
    | [] => if cursor < endTime then [(cursor, endTime)] else []
    | (occStart, occEnd) :: rest =>
      if cursor < occStart then
        (cursor, occStart) :: go (max cursor occEnd) rest
      else
        go (max cursor occEnd) rest

-- What `get_free_slots` does with the rows that its query gives.
def freeSlotsBetween (scheduled : List SatellitePass) (startTime endTime : Int) : List (Int × Int) :=
  getFreeSlots.go endTime startTime
    (mergeIntervals (scheduled.map fun p => (p.riseTime, p.setTime)))

end GreedyScheduler

end SdaSystem
