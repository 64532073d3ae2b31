import SdaSystem.Workers.Impl.LifeCycle
import SdaSystem.Workers.Lemmas.DetectPasses

open Runs

namespace SdaSystem

namespace SatellitePass

def Advance (p q : SatellitePass) : Prop :=
  q = p ∨ (p.isScheduled = false ∧ ∃ stage, q = p.schedule stage)

theorem Advance.refl (p : SatellitePass) : p.Advance p := Or.inl rfl

theorem Advance.trans {p q r : SatellitePass} (hpq : p.Advance q) (hqr : q.Advance r) : p.Advance r := by
  rcases hpq with rfl | ⟨hp, stage, rfl⟩
  . exact hqr
  . rcases hqr with rfl | ⟨hq, _⟩
    . exact .inr ⟨hp, stage, rfl⟩
    . simp at hq

theorem Advance.riseTime_eq {p q : SatellitePass} (h : p.Advance q) : q.riseTime = p.riseTime := by
  rcases h with rfl | ⟨_, stage, rfl⟩ <;> rfl

theorem Advance.key_eq {p q : SatellitePass} (h : p.Advance q) : q.key = p.key := by
  rcases h with rfl | ⟨_, stage, rfl⟩ <;> rfl

end SatellitePass

namespace PassTable

structure Advances (table table' : PassTable) : Prop where
  kept : ∀ p ∈ table.rows, ∃ q ∈ table'.rows, p.Advance q
  noNewKey : ∀ q ∈ table'.rows, ∃ p ∈ table.rows, p.Advance q

theorem advances_markScheduled {table : PassTable} {selected : List SatellitePass} {stage : ScheduledBy}
    (hmem : ∀ p ∈ selected, p ∈ table.rows) (hnew : ∀ p ∈ selected, p.isScheduled = false)
    : table.Advances (table.markScheduled (selected.map (·.id)) stage) := by
  have hadvance : ∀ p ∈ table.rows, p.id ∈ selected.map (·.id) → p.Advance (p.schedule stage) := by
    intro p hp hid
    exact .inr ⟨hnew p (mem_of_id_mem hmem hp hid), stage, rfl⟩
  constructor
  case kept =>
    intro p hp
    by_cases hid : p.id ∈ selected.map (·.id)
    . exact ⟨_, mem_markScheduled.mpr (.inr ⟨p, hp, hid, rfl⟩), hadvance p hp hid⟩
    . exact ⟨p, mem_markScheduled.mpr (.inl ⟨hp, hid⟩), .refl p⟩
  case noNewKey =>
    intro q hq
    rcases mem_markScheduled.mp hq with ⟨hq, _⟩ | ⟨p, hp, hid, rfl⟩
    . exact ⟨q, hq, .refl q⟩
    . exact ⟨p, hp, hadvance p hp hid⟩

end PassTable

theorem GreedyScheduler.advances_scheduleAllStations {fl : Rat → Rat} (hfl : Monotone fl)
    {stations : StationTable}
    {table table' : PassTable} {startTime endTime : Int} {allScheduled : List SatellitePass}
    {sats : Finset Int}
    (h : scheduleAllStations fl stations table startTime endTime = some (table', allScheduled, sats))
    : table.Advances table' := by
  obtain ⟨res, _, hvalid, heq⟩ := scheduleAllStations_eq hfl stations table startTime endTime
  rw [heq, Option.some.injEq] at h
  cases h
  apply PassTable.advances_markScheduled hvalid.mem hvalid.unscheduled

theorem advances_runOrtools
    {solver : CpSat.CpModel ORToolsOptimizer.Var → Option (CpSat.Assignment ORToolsOptimizer.Var)}
    {stations : StationTable} {table : PassTable} {startTime horizon : Int} {task : OrtoolsTask}
    : table.Advances (runOrtools solver stations table startTime horizon task) := by
  unfold runOrtools ORToolsOptimizer.optimizeRemaining
  apply PassTable.advances_markScheduled
  . intro p hp
    apply (ORToolsOptimizer.mem_getCandidatePasses (ORToolsOptimizer.mem_solve hp).left).left
  . intro p hp
    apply (ORToolsOptimizer.mem_getCandidatePasses (ORToolsOptimizer.mem_solve hp).left).right.left

theorem Pipeline.Step.advances {s t : Pipeline.State} {e : Pipeline.Event} (h : Pipeline.Step s e t)
    (hstage : LifeCycle.IsStage e) : s.table.Advances t.table := by
  cases h with
  | bulkUpsertPasses => exact hstage.elim
  | scheduleAllStations h => apply GreedyScheduler.advances_scheduleAllStations PyFloat.fl_mono h
  | runGreedy h =>
    obtain ⟨allScheduled, heq⟩ := runGreedy_eq h
    apply GreedyScheduler.advances_scheduleAllStations PyFloat.fl_mono heq
  | runOrtools => apply advances_runOrtools
  | reorder h =>
    constructor
    . intro p hp
      exact ⟨p, h.mem_iff.mpr hp, .refl p⟩
    . intro p hp
      exact ⟨p, h.mem_iff.mp hp, .refl p⟩

namespace DetectPasses

open PassDetector

variable {settings : Settings} {coords : CoordConverter} {sat : Satellite} {startTime : Int}

theorem rows_subset_execute (table : PassTable) (x : Execution)
    : table.rows ⊆ (execute settings coords sat table x).rows := by
  unfold execute bulkUpsertPasses
  split
  . split
    . apply table.rows_subset_insertAll
    . exact List.Subset.refl _
  . exact List.Subset.refl _

theorem mem_insertAll {table : PassTable} {rows : List SatellitePass} {q : SatellitePass}
    (hq : q ∈ (rows.foldl PassTable.insert table).rows)
    : q ∈ table.rows ∨ ∃ row ∈ rows, ∃ id, q = { row with id } := by
  induction rows generalizing table with
  | nil => exact .inl hq
  | cons row rows ih =>
    rcases ih hq with hq | ⟨row', hrow', hinserted⟩
    . rcases PassTable.mem_insert hq with hq | heq
      . exact .inl hq
      . exact .inr ⟨row, List.mem_cons_self, _, heq⟩
    . exact .inr ⟨row', List.mem_cons_of_mem row hrow', hinserted⟩

theorem mem_execute {table : PassTable} {x : Execution} {q : SatellitePass}
    (hq : q ∈ (execute settings coords sat table x).rows)
    : q ∈ table.rows ∨ ∃ row ∈ tleRows settings coords sat x.startTime, ∃ id, q = { row with id } := by
  unfold execute bulkUpsertPasses at hq
  split at hq
  . split at hq
    . apply mem_insertAll hq
    . exact .inl hq
  . exact .inl hq

theorem micros_seconds (t : Int) : micros (seconds t) = t := by
  rw [micros_eq, seconds_eq, div_mul_cancel₀ _ (by norm_num), Int.floor_intCast]

theorem le_getD_sampleTimes {i : Nat} (hi : i < (sampleTimes settings sat startTime).length)
    : seconds startTime ≤ (sampleTimes settings sat startTime).getD i 0 := by
  have hmem := List.getElem_mem hi
  rw [← List.getD_eq_getElem _ 0 hi] at hmem
  generalize (sampleTimes settings sat startTime).getD i 0 = t at hmem
  obtain ⟨time, htime, rfl⟩ := List.mem_map.mp hmem
  have hgrid : time ∈ SGP4Engine.timeGrid settings startTime := (compress_sublist _ _).subset htime
  obtain ⟨k, _, rfl⟩ := List.mem_map.mp hgrid
  rw [seconds_eq, seconds_eq]
  have : (startTime : Rat)
      ≤ ((startTime + k * settings.propagationStepSeconds * 1000000 : Int) : Rat) := by
    rw [Int.cast_le]
    have : (0 : Int) ≤ k * settings.propagationStepSeconds := by
      exact_mod_cast Nat.zero_le (k * settings.propagationStepSeconds)
    omega
  linarith

theorem startTime_le_riseTime {row : SatellitePass} (h : row ∈ tleRows settings coords sat startTime)
    : startTime ≤ row.riseTime := by
  obtain ⟨station, _, p, hp, rfl⟩ := mem_tleRows.mp h
  obtain ⟨positions, heq⟩ := detected_eq settings coords sat startTime station
  rw [heq] at hp
  split at hp
  . have hlength := length_samples settings coords sat startTime station
    obtain ⟨riseI, setI, hemitted, hpass⟩ := exists_run_of_mem hlength hp
    have hlength' : (sanitize (samples settings coords sat startTime station)).length
        = (sampleTimes settings sat startTime).length := by
      simp [sanitize, hlength]
    have hbounds := riseAt_bounds (sampleTimes_increasing settings sat startTime)
      (sampleTimes_keepsSteps settings sat startTime) hlength' hemitted.toIsRun
    have hfirst : seconds startTime ≤ p.riseTime := by
      rw [hpass.riseTime]
      apply le_trans _ hbounds.left
      apply le_getD_sampleTimes
      have := hemitted.lt
      have := hemitted.le
      omega
    rw [← micros_seconds startTime]
    apply micros_mono hfirst
  . cases hp

end DetectPasses

namespace LifeCycle

variable {settings : PassDetector.Settings} {coords : PassDetector.CoordConverter} {s t : State}
  {e : Event} {events : List Event}

def Deleted (settings : PassDetector.Settings) (coords : PassDetector.CoordConverter) (s : State)
    (p : SatellitePass) : List Event → Prop :=
  Once (Step settings coords) s fun _ u e =>
    e = .cleanupPasses ∧ p.riseTime < u.now - oneDay ∧ ∃ q ∈ u.table.rows, p.Advance q

theorem mem_cleanupPasses {table : PassTable} {now : Int} {q : SatellitePass}
    : q ∈ (cleanupPasses table now).1.rows ↔ q ∈ table.rows ∧ ¬ q.riseTime < now - oneDay := by
  simp [cleanupPasses, PassTable.deleteBefore]

theorem Step.kept (h : Step settings coords s e t) {p : SatellitePass} (hp : p ∈ s.table.rows)
    : (∃ q ∈ t.table.rows, p.Advance q) ∨ (e = .cleanupPasses ∧ p.riseTime < s.now - oneDay) := by
  cases h with
  | clock => exact .inl ⟨p, hp, .refl p⟩
  | beginDetection => exact .inl ⟨p, hp, .refl p⟩
  | commitRows => exact .inl ⟨p, DetectPasses.rows_subset_execute _ _ hp, .refl p⟩
  | stage hstage h => exact .inl ((h.advances hstage).kept p hp)
  | cleanupPasses =>
    by_cases hold : p.riseTime < s.now - oneDay
    . exact .inr ⟨rfl, hold⟩
    . exact .inl ⟨p, mem_cleanupPasses.mpr ⟨hp, hold⟩, .refl p⟩

theorem Step.advance_or_deleted (h : Step settings coords s e t) {p : SatellitePass}
    (hp : ∃ q ∈ s.table.rows, p.Advance q)
    : (∃ q ∈ t.table.rows, p.Advance q)
        ∨
      (e = .cleanupPasses ∧ p.riseTime < s.now - oneDay ∧ ∃ q ∈ s.table.rows, p.Advance q) := by
  obtain ⟨q, hq, hadvance⟩ := hp
  rcases h.kept hq with ⟨r, hr, hadvance'⟩ | ⟨rfl, hold⟩
  . exact .inl ⟨r, hr, hadvance.trans hadvance'⟩
  . rw [hadvance.riseTime_eq] at hold
    exact .inr ⟨rfl, hold, q, hq, hadvance⟩

def Prompt (s : State) (e : Event) : Prop :=
  ∀ n sat startTime, e = .commitRows n sat → s.began n = some startTime → s.now ≤ startTime + oneDay

/-- The time has come after which no detection gives the row that rose at this time any more. -/
structure Gone (key : Int × String × Int) (s : State) : Prop where
  absent : ∀ q ∈ s.table.rows, q.key ≠ key
  old : key.2.2 < s.now - oneDay

theorem Gone.step {key : Int × String × Int} (h : Gone key s) (hprompt : Prompt s e)
    (hstep : Step settings coords s e t) : Gone key t := by
  cases hstep with
  | clock hle =>
    refine ⟨h.absent, ?_⟩
    have := h.old
    dsimp only
    omega
  | beginDetection => exact ⟨h.absent, h.old⟩
  | @commitRows n sat startTime hbegan =>
    refine ⟨?_, h.old⟩
    intro q hq heq
    rcases DetectPasses.mem_execute hq with hq | ⟨row, hrow, id, rfl⟩
    . exact h.absent q hq heq
    . have hrise : startTime ≤ row.riseTime := DetectPasses.startTime_le_riseTime hrow
      have hle := hprompt n sat startTime rfl hbegan
      have hold := h.old
      rw [← heq] at hold
      change row.riseTime < s.now - oneDay at hold
      omega
  | stage hstage hstep =>
    refine ⟨?_, h.old⟩
    intro q hq heq
    obtain ⟨p, hp, hadvance⟩ := (hstep.advances hstage).noNewKey q hq
    apply h.absent p hp
    rw [← hadvance.key_eq, heq]
  | cleanupPasses =>
    refine ⟨?_, h.old⟩
    intro q hq
    apply h.absent q (mem_cleanupPasses.mp hq).left

/--
What `cleanup_passes` has deleted is not inserted again: as long as detections commit within a day, no
row with the same satellite, station and rise time is in the table ever after.
-/
theorem gone_of_run {u : State} (hclean : Step settings coords s .cleanupPasses u) {p : SatellitePass}
    (hp : p ∈ s.table.rows) (hdeleted : p ∉ u.table.rows)
    (hrun : Run (restrict Prompt (Step settings coords)) u events t)
    : p.key ∉ t.table.rows.map (·.key) := by
  cases hclean with
  | cleanupPasses =>
    have hold : p.riseTime < s.now - oneDay := by
      by_contra hold
      exact hdeleted (mem_cleanupPasses.mpr ⟨hp, hold⟩)
    have hgone : Gone p.key t := by
      apply hrun.invariant
      . intro s e t hs hstep
        apply hs.step hstep.left hstep.right
      . refine ⟨?_, hold⟩
        intro q hq heq
        have hq := mem_cleanupPasses.mp hq
        have : q = p := List.inj_on_of_nodup_map s.table.uniqueKey hq.left hp heq
        subst this
        exact hq.right hold
    rw [List.mem_map]
    rintro ⟨q, hq, heq⟩
    exact hgone.absent q hq heq

open PropagationResult (hourly plainCoords)

def twoDaysLater : State where
  now := 172800000000
  table := {
    rows := [Pipeline.early]
    primaryKey := by simp
    uniqueKey := by simp
    timeOrder := by decide
  }

def cleanedUp : State :=
  { twoDaysLater with table := (cleanupPasses twoDaysLater.table twoDaysLater.now).1 }

theorem gone_of_run_early
    : ∃ t, Run (restrict Prompt (Step hourly plainCoords)) cleanedUp
        [.beginDetection 1, .commitRows 1 DetectPasses.highSatellite] t
      ∧ Pipeline.early.key ∉ t.table.rows.map (·.key) := by
  obtain ⟨t, hrun⟩ : ∃ t, Run (restrict Prompt (Step hourly plainCoords)) cleanedUp
      [.beginDetection 1, .commitRows 1 DetectPasses.highSatellite] t := by
    refine ⟨_, .cons ⟨?_, .beginDetection⟩ (.cons ⟨?_, .commitRows rfl⟩ (.nil _))⟩
    . intro n sat startTime heq
      cases heq
    . intro n sat startTime heq hbegan
      cases heq
      cases hbegan
      decide
  have hclean : Step hourly plainCoords twoDaysLater .cleanupPasses cleanedUp := .cleanupPasses
  refine ⟨t, hrun, ?_⟩
  apply gone_of_run hclean _ _ hrun
  . simp [twoDaysLater]
  . intro hmem
    exact absurd (by decide) (mem_cleanupPasses.mp hmem).right

end LifeCycle

end SdaSystem
