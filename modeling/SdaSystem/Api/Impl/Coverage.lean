import SdaSystem.Db.Models
import SdaSystem.Library.Groups
import SdaSystem.Library.Rounding

/-!
`GET /api/coverage`: how many satellites are visible and scheduled, by stage and by station.

The queries give their groups in the order of first appearance. `fl` is what becomes of the result of an
operation on floats; with `id` for it the percentages are exact, which is what they are before rounding.
-/

namespace SdaSystem
namespace Coverage

/-- `COUNT(DISTINCT norad_id)` -/
def countSatellites (rows : List SatellitePass) : Nat :=
  (rows.map (·.noradId)).dedup.length

def scheduledRows (table : PassTable) : List SatellitePass :=
  table.rows.filter (·.isScheduled)

def stageRows (table : PassTable) : List (Option ScheduledBy × Nat) :=
  (groupKeys (·.scheduledBy) (scheduledRows table)).map fun stage =>
    (stage, countSatellites (group (·.scheduledBy) (scheduledRows table) stage))

structure StageCounts where
  greedyScheduled : Nat := 0
  ortoolsScheduled : Nat := 0
  deriving DecidableEq, Repr

def StageCounts.add (counts : StageCounts) (row : Option ScheduledBy × Nat) : StageCounts :=
  match row with
  | (some .greedy, cnt) => { counts with greedyScheduled := counts.greedyScheduled + cnt }
  | (some .intervalTree, cnt) => { counts with greedyScheduled := counts.greedyScheduled + cnt }
  | (some .ortools, cnt) => { counts with ortoolsScheduled := cnt }
  | (none, _) => counts

def stageCounts (stageRows : List (Option ScheduledBy × Nat)) : StageCounts :=
  stageRows.foldl StageCounts.add {}

structure StationUtilization where
  stationId : String
  stationName : String
  totalPassesVisible : Nat
  scheduledPasses : Nat
  uniqueSatellitesScheduled : Nat
  utilizationPct : Rat
  deriving DecidableEq, Repr

structure CoverageResponse where
  totalVisibleSatellites : Nat
  greedyScheduled : Nat
  ortoolsScheduled : Nat
  totalScheduled : Nat
  coveragePct : Rat
  greedyCoveragePct : Rat
  ortoolsImprovementPct : Rat
  stationUtilization : List StationUtilization
  unscheduledCount : Int
  deriving DecidableEq, Repr

section

variable (fl : Rat → Rat)

def percent (n : Int) (total : Nat) : Rat :=
  if 0 < total then fl (fl (n / total) * 100) else 0

/-- `round(x, 1)` -/
def round1 (x : Rat) : Rat :=
  fl (Rounding.halfEven (x * 10) / 10)

def stationUtilization (table : PassTable) (stationNames : List (String × String))
    : List StationUtilization :=
  (groupKeys (·.stationId) table.rows).map fun stationId =>
    let rows := group (·.stationId) table.rows stationId
    let total := rows.length
    let scheduled := rows.countP (·.isScheduled)
    {
      stationId
      stationName := (stationNames.lookup stationId).getD ("Station_" ++ stationId)
      totalPassesVisible := total
      scheduledPasses := scheduled
      uniqueSatellitesScheduled := countSatellites (rows.filter (·.isScheduled))
      utilizationPct := round1 fl (percent fl scheduled total)
    }

/-- The statistics with the three percentages as they are before `round`. -/
def coverage (table : PassTable) (stationNames : List (String × String)) : CoverageResponse :=
  let totalVisible := countSatellites table.rows
  let counts := stageCounts (stageRows table)
  let totalScheduled := countSatellites (scheduledRows table)
  {
    totalVisibleSatellites := totalVisible
    greedyScheduled := counts.greedyScheduled
    ortoolsScheduled := counts.ortoolsScheduled
    totalScheduled
    coveragePct := percent fl totalScheduled totalVisible
    greedyCoveragePct := percent fl counts.greedyScheduled totalVisible
    ortoolsImprovementPct := percent fl (totalScheduled - counts.greedyScheduled) totalVisible
    stationUtilization := stationUtilization fl table stationNames
    unscheduledCount := totalVisible - totalScheduled
  }

def getCoverage (table : PassTable) (stationNames : List (String × String)) : CoverageResponse :=
  let response := coverage fl table stationNames
  { response with
    coveragePct := round1 fl response.coveragePct
    greedyCoveragePct := round1 fl response.greedyCoveragePct
    ortoolsImprovementPct := round1 fl response.ortoolsImprovementPct }

end

end Coverage
end SdaSystem
