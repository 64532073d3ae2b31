import SdaSystem.Library.Rounding
import SdaSystem.Scheduling.Impl.IntervalTree

/-!
The conversion that the interval-tree scheduler applies to its times. `timestamp` divides the whole
microseconds of a time by a million and gives the nearest float.
-/

namespace SdaSystem
namespace IntervalTreeScheduler

open Rounding

def toUtcTimestamp (dt : Int) : Rat :=
  nearest binary64 (mkRat dt 1000000)

end IntervalTreeScheduler
end SdaSystem
