import SdaSystem.Db.Models
import SdaSystem.Library.Gregorian
import SdaSystem.Library.SortedBy

/-!
`GET /api/schedule`: the scheduled passes of a station on one date.
-/

namespace SdaSystem

open Gregorian

namespace Schedule

def usPerDay : Int := 86400000000

/-- A Python `date`, which ends with the year 9999. -/
structure QueryDate where
  date : Date
  yearLe : date.year ≤ 9999
  deriving DecidableEq

/-- `datetime.combine(d, time.min, timezone.utc)`; 1970-01-01 is the date number 719163. -/
def startTime (d : Date) : Int :=
  (d.ordinal - 719163) * usPerDay

structure ScheduleResponse where
  stationId : String
  date : String
  scheduledPasses : Nat
  passes : List SatellitePass
  deriving DecidableEq, Repr

def query (table : PassTable) (stationId : String) (startTime endTime : Int) : List SatellitePass :=
  sortedBy (·.riseTime) <| table.rows.filter fun p =>
    p.stationId = stationId ∧ p.isScheduled ∧ startTime ≤ p.riseTime ∧ p.setTime ≤ endTime

/-- `none` is the `OverflowError` of a day that ends after the last `datetime`. -/
def getSchedule (table : PassTable) (stationId : String) (scheduleDate : QueryDate)
    : Option ScheduleResponse :=
  let startTime := startTime scheduleDate.date
  if scheduleDate.date.next.year ≤ 9999 then
    let passes := query table stationId startTime (startTime + usPerDay)
    some {
      stationId
      date := scheduleDate.date.isoformat
      scheduledPasses := passes.length
      passes
    }
  else
    none

end Schedule

end SdaSystem
