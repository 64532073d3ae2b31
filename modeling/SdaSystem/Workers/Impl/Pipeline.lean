import SdaSystem.Scheduling.Impl.OrTools

/-!
The tasks that write the `satellite_passes` table: the bulk insert of detected passes and the two
scheduling stages, with the arguments that the first stage hands over to the second.
-/

open CpSat

namespace SdaSystem

structure OrtoolsTask where
  scheduledSats : Finset Int
  freeSlots : List (String × List (Int × Int))
  deriving DecidableEq

/--
One `INSERT` of all rows, `ON CONFLICT DO NOTHING`; `none` is the error that one row violating a
check raises for the whole statement.
-/
def bulkUpsertPasses (table : PassTable) (rows : List SatellitePass) : Option PassTable :=
  if ∀ p ∈ rows, p.Checks then
    some (rows.foldl PassTable.insert table)
  else
    none

def freeSlotsOf (stations : StationTable) (table : PassTable) (startTime endTime : Int)
    : List (String × List (Int × Int)) :=
  (stations.rows.filter (·.isActive)).map fun station =>
    (station.stationId, GreedyScheduler.getFreeSlots table station.stationId startTime endTime)

namespace slotArgs

variable {Text : Type} (isoformat : Int → Text) (fromisoformat : Text → Option Int)

def serialize (slots : List (Int × Int)) : List (Text × Text) :=
  slots.map fun s => (isoformat s.1, isoformat s.2)

def parse (slots : List (Text × Text)) : Option (List (Int × Int)) :=
  slots.mapM fun s => do
    let slotStart ← fromisoformat s.1
    let slotEnd ← fromisoformat s.2
    return (slotStart, slotEnd)

/-- The test of Stage 2 for a candidate of the station, on the slots that Stage 1 sent as texts. -/
def accepts (slots : List (Int × Int)) (p : SatellitePass) : Option Bool := do
  let parsed ← parse fromisoformat (serialize isoformat slots)
  return ORToolsOptimizer.fitsInAnySlot p.riseTime p.setTime (sortedBy (·.1) parsed)

end slotArgs

/-- `fl` is what an operation on floats makes of its exact result. -/
def runGreedy (fl : Rat → Rat) (stations : StationTable) (table : PassTable) (startTime horizon : Int)
    : Option (PassTable × OrtoolsTask) := do
  let endTime := startTime + horizon
  let (table, _, scheduledSats) ←
    GreedyScheduler.scheduleAllStations fl stations table startTime endTime
  return (table, { scheduledSats, freeSlots := freeSlotsOf stations table startTime endTime })

namespace runOrtools

def parsedSlots (stations : StationTable) (table : PassTable) (startTime endTime : Int)
    (task : OrtoolsTask) : List (String × List (Int × Int)) :=
  if task.freeSlots = [] then freeSlotsOf stations table startTime endTime else task.freeSlots

def scheduledSats (table : PassTable) (task : OrtoolsTask) : Finset Int :=
  if task.scheduledSats = ∅ then
    ((table.rows.filter (·.isScheduled)).map (·.noradId)).toFinset
  else
    task.scheduledSats

end runOrtools

def runOrtools (solver : CpModel ORToolsOptimizer.Var → Option (Assignment ORToolsOptimizer.Var))
    (stations : StationTable) (table : PassTable) (startTime horizon : Int) (task : OrtoolsTask)
    : PassTable :=
  let endTime := startTime + horizon
  let parsedSlots := runOrtools.parsedSlots stations table startTime endTime task
  let scheduledSats := runOrtools.scheduledSats table task
  (ORToolsOptimizer.optimizeRemaining solver table scheduledSats startTime endTime parsedSlots).1

namespace Pipeline

/-- The table and the `run_ortools` tasks sent so far. None is forgotten: each may run again. -/
structure State where
  table : PassTable
  tasks : List OrtoolsTask := []

inductive Event where
  | bulkUpsertPasses (rows : List SatellitePass)
  | scheduleAllStations (stations : StationTable) (startTime endTime : Int)
  | runGreedy (stations : StationTable) (startTime horizon : Int)
  | runOrtools (stations : StationTable) (startTime horizon : Int) (task : OrtoolsTask)
  | reorder

/-- What the tasks do to the state. A task that fails rolls back, and takes no step. -/
inductive Step : State → Event → State → Prop where
  | bulkUpsertPasses {s : State} {rows : List SatellitePass} {table : PassTable}
      (hnew : ∀ p ∈ rows, p.isScheduled = false)
      (h : SdaSystem.bulkUpsertPasses s.table rows = some table)
      : Step s (.bulkUpsertPasses rows) { s with table }
  | scheduleAllStations {s : State} {stations : StationTable} {startTime endTime : Int}
      {table : PassTable} {allScheduled : List SatellitePass} {scheduledSats : Finset Int}
      (h : GreedyScheduler.scheduleAllStations PyFloat.fl stations s.table startTime endTime
        = some (table, allScheduled, scheduledSats))
      : Step s (.scheduleAllStations stations startTime endTime) { s with table }
  | runGreedy {s : State} {stations : StationTable} {startTime horizon : Int} {table : PassTable}
      {task : OrtoolsTask}
      (h : SdaSystem.runGreedy PyFloat.fl stations s.table startTime horizon = some (table, task))
      : Step s (.runGreedy stations startTime horizon) { table, tasks := task :: s.tasks }
  | runOrtools {s : State} {stations : StationTable} {startTime horizon : Int} {task : OrtoolsTask}
      {solver : CpModel ORToolsOptimizer.Var → Option (Assignment ORToolsOptimizer.Var)}
      (htask : task ∈ s.tasks) (hsolver : CpModel.Sound solver)
      : Step s (.runOrtools stations startTime horizon task) {
          s with table := SdaSystem.runOrtools solver stations s.table startTime horizon task
        }
  -- A query without ORDER BY gives the rows in any order.
  | reorder {s : State} {table : PassTable} (h : table.rows.Perm s.table.rows)
      : Step s .reorder { s with table }

end Pipeline

end SdaSystem
