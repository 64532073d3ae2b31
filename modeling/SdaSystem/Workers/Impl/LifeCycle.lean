import SdaSystem.Workers.Impl.DetectPasses

/-!
Everything that writes to the `satellite_passes` table, on one clock: detections, which insert the rows
of one satellite after the other, the scheduling stages, and `cleanup_passes`. Times are microseconds.
-/

namespace SdaSystem

def oneDay : Int := 24 * 3600 * 1000000

/-- `DELETE FROM satellite_passes WHERE rise_time < :cutoff` -/
def PassTable.deleteBefore (table : PassTable) (cutoff : Int) : PassTable where
  rows := table.rows.filter fun p => ¬ p.riseTime < cutoff
  primaryKey := table.primaryKey.sublist (List.filter_sublist.map _)
  uniqueKey := table.uniqueKey.sublist (List.filter_sublist.map _)
  timeOrder p hp := table.timeOrder p (List.mem_of_mem_filter hp)

/-- The table, and the numbers of rows that are deleted and that remain. `keep_days` is not read. -/
def cleanupPasses (table : PassTable) (now : Int) : PassTable × Nat × Nat :=
  let cutoff := now - oneDay
  let remaining := table.deleteBefore cutoff
  (remaining, table.rows.countP (fun p => p.riseTime < cutoff), remaining.rows.length)

namespace LifeCycle

structure State where
  now : Int
  table : PassTable
  tasks : List OrtoolsTask := []
  -- when the detections began that are under way
  began : Nat → Option Int := fun _ => none

inductive Event where
  | clock (now : Int)
  -- `detect_passes`, `_run_pipeline_sync` and `trigger_run_pipeline` read the clock once
  | beginDetection (n : Nat)
  | commitRows (n : Nat) (sat : Satellite)
  | stage (e : Pipeline.Event)
  | cleanupPasses

def IsStage (e : Pipeline.Event) : Prop :=
  match e with
  | .bulkUpsertPasses _ => False
  | _ => True

variable (settings : PassDetector.Settings) (coords : PassDetector.CoordConverter)

inductive Step : State → Event → State → Prop where
  | clock {s : State} {now : Int} (h : s.now ≤ now) : Step s (.clock now) { s with now }
  | beginDetection {s : State} {n : Nat}
      : Step s (.beginDetection n) { s with began := Function.update s.began n (some s.now) }
  | commitRows {s : State} {n : Nat} {sat : Satellite} {startTime : Int}
      (h : s.began n = some startTime)
      : Step s (.commitRows n sat) {
          s with
          table := DetectPasses.execute settings coords sat s.table { startTime, commits := true }
        }
  | stage {s : State} {e : Pipeline.Event} {t : Pipeline.State} (hstage : IsStage e)
      (h : Pipeline.Step { table := s.table, tasks := s.tasks } e t)
      : Step s (.stage e) { s with table := t.table, tasks := t.tasks }
  | cleanupPasses {s : State}
      : Step s .cleanupPasses { s with table := (SdaSystem.cleanupPasses s.table s.now).1 }

end LifeCycle
end SdaSystem
