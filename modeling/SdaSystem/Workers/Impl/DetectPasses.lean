import SdaSystem.Propagation.Impl.Engine
import SdaSystem.Workers.Impl.Pipeline

/-!
This module contains what an execution of `detect_passes` does for one satellite: it propagates from
the time at which it starts, detects the passes over all active stations and inserts their rows.
-/

namespace SdaSystem

open PassDetector

/-- What does not change between executions: the element set of the satellite and the stations. -/
structure Satellite where
  noradId : Int
  satrec : SGP4Engine.Satrec
  stations : List Station
  uniqueStations : (stations.map (·.stationId)).Nodup

/-- The instant of a time in seconds; all times of the detector are whole microseconds. -/
def micros (t : Rat) : Int :=
  (t * 1000000).floor

namespace DetectPasses

section

variable (settings : Settings) (coords : CoordConverter) (sat : Satellite) (startTime : Int)

def propagated : PropagationResult :=
  SGP4Engine.propagate settings sat.satrec sat.noradId startTime

def detected (station : Station) : List PassRecord :=
  let result := propagated settings sat startTime
  if ¬ result.isUsable then
    []
  else if result.validPositions.length = 0 then
    []
  else
    match detectPasses coords result.validPositions result.validTimes station settings with
    | .ok detected => detected
    | .error _ => []

def rowOf (station : Station) (p : PassRecord) : SatellitePass where
  id := 0
  noradId := sat.noradId
  stationId := station.stationId
  riseTime := micros p.riseTime
  setTime := micros p.setTime
  durationSeconds := p.durationSeconds
  maxElevation := p.maxElevation

def tleRows : List SatellitePass :=
  sat.stations.flatMap fun station =>
    (detected settings coords sat startTime station).map (rowOf sat station)

end

/-- An execution that does not commit the rows of the satellite fails or is killed before that. -/
structure Execution where
  startTime : Int
  commits : Bool

def execute (settings : Settings) (coords : CoordConverter) (sat : Satellite) (table : PassTable)
    (x : Execution) : PassTable :=
  if x.commits then
    -- An error of the statement is rolled back.
    (bulkUpsertPasses table (tleRows settings coords sat x.startTime)).getD table
  else
    table

end DetectPasses

end SdaSystem
