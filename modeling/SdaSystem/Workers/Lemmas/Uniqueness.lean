import SdaSystem.Workers.Lemmas.Pipeline

open CpSat

namespace SdaSystem

def PassTable.UniqueSats (table : PassTable) : Prop :=
  ∀ p ∈ table.rows, ∀ q ∈ table.rows,
    p.isScheduled → q.isScheduled → p.noradId = q.noradId → p = q

instance (table : PassTable) : Decidable table.UniqueSats :=
  inferInstanceAs (Decidable (∀ p ∈ table.rows, ∀ q ∈ table.rows, _))

namespace PassTable

variable {table : PassTable} {selected : List SatellitePass} {stage : ScheduledBy}

theorem mem_markScheduled_of_mem (stage : ScheduledBy) {p : SatellitePass} (hp : p ∈ table.rows)
    (hsel : p ∈ selected)
    : p.schedule stage ∈ (table.markScheduled (selected.map (·.id)) stage).rows := by
  rw [mem_markScheduled]
  exact Or.inr ⟨p, hp, List.mem_map_of_mem hsel, rfl⟩

theorem uniqueSats_markScheduled_iff (hmem : ∀ p ∈ selected, p ∈ table.rows)
    (hnew : ∀ p ∈ selected, p.isScheduled = false)
    (hpair : selected.Pairwise fun p q => p.noradId ≠ q.noradId)
    (hfresh : ∀ p ∈ selected, ∀ q ∈ table.rows, q.isScheduled → p.noradId ≠ q.noradId)
    : (table.markScheduled (selected.map (·.id)) stage).UniqueSats ↔ table.UniqueSats := by
  constructor
  . intro h p hp q hq hpsched hqsched hnorad
    have hkeep : ∀ r ∈ table.rows, r.isScheduled
        → r ∈ (table.markScheduled (selected.map (·.id)) stage).rows := by
      intro r hr hsched
      rw [mem_markScheduled]
      apply Or.inl
      refine ⟨hr, ?_⟩
      intro hid
      have := hnew r (mem_of_id_mem hmem hr hid)
      simp [this] at hsched
    apply h p (hkeep p hp hpsched) q (hkeep q hq hqsched) hpsched hqsched hnorad
  . intro h p hp q hq hpsched hqsched hnorad
    by_contra hne
    apply forall_scheduled_markScheduled (r := fun p q => p.noradId ≠ q.noradId) (fun p q h => h.symm)
      hmem _ hfresh hpair p hp q hq hpsched hqsched hne hnorad
    intro p hp q hq hpsched hqsched hne hnorad
    apply hne
    apply h p hp q hq hpsched hqsched hnorad

theorem uniqueSats_markScheduled_of_new (hmem : ∀ p ∈ selected, p ∈ table.rows)
    (hnodup : selected.Nodup) (hnew : ∀ p ∈ table.rows, p.isScheduled = false)
    : (table.markScheduled (selected.map (·.id)) stage).UniqueSats
        ↔
      (selected.map (·.noradId)).Nodup := by
  constructor
  . intro h
    apply List.Nodup.map_on _ hnodup
    intro p hp q hq hnorad
    have hp' := mem_markScheduled_of_mem stage (hmem p hp) hp
    have hq' := mem_markScheduled_of_mem stage (hmem q hq) hq
    have heq := h _ hp' _ hq' rfl rfl hnorad
    apply table.eq_of_id_eq (hmem p hp) (hmem q hq)
    apply congrArg (·.id) heq
  . intro h
    apply (uniqueSats_markScheduled_iff hmem _ _ _).mpr
    . intro p hp q hq hpsched
      simp [hnew p hp] at hpsched
    . intro p hp
      apply hnew p (hmem p hp)
    . apply List.pairwise_map.mp h
    . intro p hp q hq hqsched
      simp [hnew q hq] at hqsched

end PassTable

namespace GreedyScheduler

section

variable (fl : Rat → Rat) (table : PassTable) (startTime endTime : Int)

/--
At every station, the best schedule of the rows offered has no satellite twice, when the rows offered
are those of satellites that the stations before have not used.
-/
def RepeatFree (stationIds : List String) (sats : Finset Int) : Prop :=
  match stationIds with
  | [] => True
  | stationId :: rest =>
    ∀ selected, IsFirstBestSchedule fl (candidates table startTime endTime stationId sats) selected
      → (selected.map (·.noradId)).Nodup
          ∧ RepeatFree rest (sats ∪ (selected.map (·.noradId)).toFinset)

variable {fl : Rat → Rat} {table startTime endTime}

theorem repeatFree_cons_iff {stationId : String} {rest : List String} {sats : Finset Int}
    {selected : List SatellitePass}
    (hfirst : IsFirstBestSchedule fl (candidates table startTime endTime stationId sats) selected)
    : RepeatFree fl table startTime endTime (stationId :: rest) sats
        ↔
      (selected.map (·.noradId)).Nodup
        ∧ RepeatFree fl table startTime endTime rest (sats ∪ (selected.map (·.noradId)).toFinset) := by
  constructor
  . intro h
    apply h selected hfirst
  . intro h selected' hfirst'
    rw [hfirst'.unique hfirst]
    apply h

theorem StationRun.nodup_noradId_iff {stationIds : List String} {acc res : Progress}
    (hrun : StationRun fl table startTime endTime stationIds acc res)
    (hsats : ∀ n, n ∈ acc.globallyScheduledSats ↔ ∃ p ∈ acc.allScheduled, p.noradId = n)
    : (res.allScheduled.map (·.noradId)).Nodup
        ↔
      (acc.allScheduled.map (·.noradId)).Nodup
        ∧ RepeatFree fl table startTime endTime stationIds acc.globallyScheduledSats := by
  induction hrun with
  | nil acc => simp [RepeatFree]
  | cons selected hfirst hrest ih =>
    rename_i stationId rest acc res
    have hfresh : ∀ p ∈ acc.allScheduled, ∀ q ∈ selected, p.noradId ≠ q.noradId := by
      intro p hp q hq heq
      have hcand := (mem_candidates _ _ _).mp (hfirst.subperm.subset hq)
      apply hcand.noradId
      rw [hsats]
      exact ⟨p, hp, heq⟩
    have hsats' : ∀ n, n ∈ (acc.extend selected).globallyScheduledSats
        ↔ ∃ p ∈ (acc.extend selected).allScheduled, p.noradId = n := by
      intro n
      simp only [Progress.extend, Finset.mem_union, hsats, List.mem_toFinset, List.mem_map,
        List.mem_append]
      grind
    rw [ih hsats', repeatFree_cons_iff hfirst]
    unfold Progress.extend
    simp only [List.map_append, List.nodup_append, List.mem_map]
    grind

end

end GreedyScheduler

section pipeline

variable {stations stations' : StationTable} {table : PassTable}

theorem runOrtools.mem_scheduledSats {task : OrtoolsTask}
    (hsats : ∀ p ∈ table.rows, p.isScheduled → p.noradId ∈ task.scheduledSats) {p : SatellitePass}
    (hp : p ∈ table.rows) (hsched : p.isScheduled) : p.noradId ∈ scheduledSats table task := by
  unfold scheduledSats
  split
  . rw [List.mem_toFinset, List.mem_map]
    exact ⟨p, by simp [hp, hsched], rfl⟩
  . apply hsats p hp hsched

theorem runOrtools_uniqueSats_iff {task : OrtoolsTask}
    (hsats : ∀ p ∈ table.rows, p.isScheduled → p.noradId ∈ task.scheduledSats)
    (solver : CpModel ORToolsOptimizer.Var → Option (Assignment ORToolsOptimizer.Var))
    (startTime horizon : Int)
    : (runOrtools solver stations table startTime horizon task).UniqueSats ↔ table.UniqueSats := by
  unfold runOrtools ORToolsOptimizer.optimizeRemaining
  apply PassTable.uniqueSats_markScheduled_iff
  . intro p hp
    apply (ORToolsOptimizer.mem_getCandidatePasses (ORToolsOptimizer.mem_solve hp).left).left
  . intro p hp
    have := ORToolsOptimizer.mem_getCandidatePasses (ORToolsOptimizer.mem_solve hp).left
    apply this.right.left
  . apply ORToolsOptimizer.solve_pairwise_noradId
  . intro p hp q hq hqsched heq
    apply (ORToolsOptimizer.mem_solve hp).right.left
    rw [heq]
    apply runOrtools.mem_scheduledSats hsats hq hqsched

def again : SatellitePass :=
  { Pipeline.early with riseTime := 6000000000, setTime := 6600000000 }

end pipeline

end SdaSystem
